import Stencil.Proofs.UserInput.Gathering

/-!
# What is remembered over many calls

A call collects the inputs of one content for one URL. It asks for the names that are secret or
not remembered for the URL, each once and in the order of the content; it adds the answers to the
other names to the store and changes nothing else there; and it returns what was remembered and
what was answered (`Collects`). Over a run of calls the entries at the end are those at the start
and the answers that were stored (`value?_runAll`), so a call that is repeated at any later time
finds every value that it had (`inputs_remembered`).
-/

namespace Stencil.Collection

open UserInput

/-! ## Calls -/

/-- A request for the inputs of a content. -/
structure Call where
  content : String
  url : String
  /-- The user, if one can be asked. -/
  prompter : Option Prompter
  /-- How domain names are read. -/
  toAscii? : Url.DomainReading

/-- A store and what happened so far. -/
structure State where
  session : Session
  journal : Journal

namespace Call

variable (call : Call) (s : State)

def endpoint : String := Endpoint.of call.url call.toAscii?

/-- What a call collects. -/
def run : Collection :=
  collect call.content call.url call.prompter s.session s.journal call.toAscii?

/-- What a call leaves behind. -/
def after : State := ⟨(call.run s).session, (call.run s).journal⟩

/-- Whether a call has to ask for a name. -/
def wants (name : String) : Bool :=
  isSecret (marks call.content) name || (s.session.get? call.endpoint name).isNone

/-- The questions of a call, each with its reply. -/
def replies : List (Prompt × Except String String) :=
  said call.endpoint call.prompter (detect call.content) ⟨.empty, s.session, s.journal⟩

/-- What one call does. -/
structure Collects : Prop where
  /-- It asks for the wanted names in their order, if it can ask, -/
  asks : (call.replies s).map (·.1.name) =
    if call.prompter.isSome then (names call.content).filter (call.wants s) else []
  /-- for each of them once, -/
  once : ((call.replies s).map (·.1.name)).Nodup
  /-- without showing what is secret anywhere in the content, -/
  hides : ∀ r ∈ call.replies s, r.1.password = isSecret (marks call.content) r.1.name
  /-- by the text of the first mark, -/
  words : ∀ r ∈ call.replies s, ∃ m,
    (marks call.content).find? (fun m => m.label == r.1.name) = some m ∧
      r.1.description = String.ofList m.write
  /-- and hears what the user says. -/
  hears : ∀ ask, call.prompter = some ask →
    call.replies s = (((call.replies s).map (·.1)).zipIdx s.journal.asked).map
      fun (q, i) => (q, ask i q)
  prompts : (call.after s).journal.prompts =
    s.journal.prompts ++ (call.replies s).map (·.1)
  /-- It returns what was remembered and what was answered. -/
  values : ∀ name text, (call.run s).values.get? name = some text ↔
    (name ∈ names call.content ∧ isSecret (marks call.content) name = false ∧
      s.session.get? call.endpoint name = some text) ∨
    ∃ q, (q, .ok text) ∈ call.replies s ∧ q.name = name
  /-- It adds the answers that are not secret to the store, -/
  entries : ∀ e name value, (call.after s).session.value? e name = some value ↔
    s.session.value? e name = some value ∨
      e = call.endpoint ∧ Stored (call.replies s) name value
  /-- nothing under a name that is secret, -/
  secrets : ∀ name, isSecret (marks call.content) name = true →
    ∀ e, (call.after s).session.value? e name = s.session.value? e name
  /-- nothing for another endpoint, -/
  elsewhere : ∀ e, e ≠ call.endpoint →
    (call.after s).session.entries.get? e = s.session.entries.get? e
  /-- nothing at all where there is no such answer, -/
  unchanged : (∀ name value, ¬ Stored (call.replies s) name value) →
    (call.after s).session = s.session
  /-- and keeps the file of the store. -/
  path : (call.after s).session.path? = s.session.path?

variable {call s}

theorem gathers (call : Call) (s : State) :
    Gathers call.endpoint call.prompter (detect call.content) ⟨.empty, s.session, s.journal⟩
      (call.run s) := by
  refine gathers_foldl ?_ fun p _ => Dict.get?_empty p.name
  rw [map_name_detect]
  exact nodup_names call.content

/-- Every question of a call is that of a name of its content which had no usable value. -/
theorem exists_of_mem_replies {q : Prompt} {r : Except String String}
    (h : (q, r) ∈ call.replies s) :
    ∃ p ∈ detect call.content, remembered? s.session call.endpoint p = none ∧ question p = q :=
  mem_due.1 (mem_of_mem_replies h)

theorem password_of_mem_replies {q : Prompt} {r : Except String String}
    (h : (q, r) ∈ call.replies s) : q.password = isSecret (marks call.content) q.name := by
  obtain ⟨p, hp, -, rfl⟩ := exists_of_mem_replies h
  exact secret_of_mem_detect hp

theorem isNone_remembered?_eq {p : Pattern} (hp : p ∈ detect call.content) :
    (remembered? s.session call.endpoint p).isNone = call.wants s p.name := by
  rw [wants, ← secret_of_mem_detect hp, remembered?]
  cases p.secret <;> simp

theorem map_name_replies (call : Call) (s : State) :
    (call.replies s).map (·.1.name) =
      if call.prompter.isSome then (names call.content).filter (call.wants s) else [] := by
  unfold replies said Collection.replies
  cases call.prompter with
  | none => rfl
  | some ask =>
    have hwanted : (detect call.content).filter
          (fun p => (remembered? s.session call.endpoint p).isNone) =
        (detect call.content).filter (fun p => call.wants s p.name) :=
      List.filter_congr fun p hp => isNone_remembered?_eq hp
    have hquestions : (due s.session call.endpoint (detect call.content)).map (·.name) =
        (names call.content).filter (call.wants s) := by
      rw [due, hwanted, ← map_name_detect, List.filter_map, List.map_map]
      rfl
    calc (Collection.replies (some ask) s.journal.asked _).map (·.1.name)
        = ((Collection.replies (some ask) s.journal.asked _).map (·.1)).map (·.name) :=
          List.map_map.symm
      _ = _ := by rw [map_fst_replies, hquestions]; rfl

theorem replies_eq {ask : Prompter} (h : call.prompter = some ask) :
    call.replies s = (((call.replies s).map (·.1)).zipIdx s.journal.asked).map
      fun (q, i) => (q, ask i q) := by
  unfold replies said
  rw [h, map_fst_replies]
  rfl

theorem collects (call : Call) (s : State) : call.Collects s where
  asks := map_name_replies call s
  once := by
    rw [map_name_replies]
    split
    · exact (nodup_names call.content).filter _
    · exact List.nodup_nil
  hides := fun _ h => password_of_mem_replies h
  words := by
    intro r h
    obtain ⟨p, hp, -, heq⟩ := exists_of_mem_replies (r := r.2) h
    rw [← heq]
    exact written_of_mem_detect hp
  hears := fun _ => replies_eq
  prompts := (gathers call s).prompts
  values := by
    intro name text
    rw [(gathers call s).values]
    refine ⟨?_, ?_⟩
    · rintro (hnone | ⟨p, hp, rfl, hr⟩ | hanswer)
      · cases hnone
      · cases hsecret : p.secret with
        | true => simp [remembered?, hsecret] at hr
        | false =>
          rw [remembered?, hsecret] at hr
          exact .inl ⟨name_mem_names hp, by rw [← secret_of_mem_detect hp, hsecret], hr⟩
      · exact .inr hanswer
    · rintro (⟨hmem, hplain, hget⟩ | hanswer)
      · obtain ⟨p, hp, rfl⟩ := List.mem_map.1 (map_name_detect call.content ▸ hmem)
        refine .inr (.inl ⟨p, hp, rfl, ?_⟩)
        rw [remembered?, secret_of_mem_detect hp, hplain]
        exact hget
      · exact .inr (.inr hanswer)
  entries := (gathers call s).value?
  secrets := by
    intro name hsecret e
    refine Option.ext fun value => ?_
    rw [after, (gathers call s).value?]
    refine ⟨?_, .inl⟩
    rintro (hold | ⟨-, q, v, hq, rfl, hplain, -⟩)
    · exact hold
    · rw [password_of_mem_replies hq, hsecret] at hplain
      cases hplain
  elsewhere := (gathers call s).elsewhere
  unchanged := (gathers call s).unchanged
  path := (gathers call s).path

/-- What a call returns for a name that is not secret is in the store afterwards. -/
theorem exists_value?_after {name text : String}
    (hplain : isSecret (marks call.content) name = false)
    (h : (call.run s).values.get? name = some text) :
    name ∈ names call.content ∧ ∃ value,
      (call.after s).session.value? call.endpoint name = some value ∧ value.toText = text := by
  have hcollects := call.collects s
  rcases (hcollects.values name text).1 h with ⟨hmem, -, hget⟩ | ⟨q, hq, rfl⟩
  · -- It was remembered before the call.
    obtain ⟨value, hold, rfl⟩ := Option.map_eq_some_iff.1 hget
    exact ⟨hmem, value, (hcollects.entries _ _ _).2 (.inl hold), rfl⟩
  · -- It was answered in the call and is not secret, so the answer was stored.
    obtain ⟨p, hp, -, rfl⟩ := exists_of_mem_replies hq
    have hstored : Stored (call.replies s) p.name (.text text) :=
      ⟨_, text, hq, rfl, (password_of_mem_replies hq).trans hplain, rfl⟩
    exact ⟨name_mem_names hp, _, (hcollects.entries _ _ _).2 (.inr ⟨rfl, hstored⟩), rfl⟩

/-- A name that is not secret and still has no entry was asked for in vain, if anybody could be
asked. -/
theorem exists_failed {ask : Prompter} {p : Pattern} (hprompter : call.prompter = some ask)
    (hp : p ∈ detect call.content) (hplain : p.secret = false)
    (hnone : (call.after s).session.value? call.endpoint p.name = none) :
    ∃ why, (question p, .error why) ∈ call.replies s := by
  have hentries := (call.collects s).entries call.endpoint p.name
  have hbefore : remembered? s.session call.endpoint p = none := by
    rw [remembered?, hplain]
    refine Option.eq_none_iff_forall_ne_some.2 fun text hget => ?_
    obtain ⟨value, hold, -⟩ := Option.map_eq_some_iff.1 hget
    have := (hentries value).2 (.inl hold)
    rw [hnone] at this
    cases this
  obtain ⟨reply, hreply⟩ : ∃ reply, (question p, reply) ∈ call.replies s := by
    unfold replies said
    rw [hprompter]
    exact exists_reply (mem_due.2 ⟨p, hp, hbefore, rfl⟩) _
  cases reply with
  | error why => exact ⟨why, hreply⟩
  | ok text =>
    have := (hentries (.text text)).2 (.inr ⟨rfl, question p, text, hreply, rfl, hplain, rfl⟩)
    rw [hnone] at this
    cases this

end Call

/-! ## Runs -/

/-- What a run of calls leaves behind. -/
def runAll (s : State) (calls : List Call) : State := calls.foldl (fun s call => call.after s) s

/-- The calls of a run, each with what it finds. -/
def visits : State → List Call → List (Call × State)
  | _, [] => []
  | s, call :: rest => (call, s) :: visits (call.after s) rest

theorem prompts_runAll (s : State) (calls : List Call) :
    (runAll s calls).journal.prompts = s.journal.prompts ++
      (visits s calls).flatMap fun v => (v.1.replies v.2).map (·.1) := by
  induction calls generalizing s with
  | nil => simp [runAll, visits]
  | cons call rest ih =>
    have hrest : (runAll s (call :: rest)) = runAll (call.after s) rest := rfl
    rw [hrest, ih, (call.collects s).prompts, visits, List.flatMap_cons, List.append_assoc]

/-- The entries at the end of a run are those at its start and the answers that were stored. -/
theorem value?_runAll (s : State) (calls : List Call) (e name : String) (value : Scalar) :
    (runAll s calls).session.value? e name = some value ↔
      s.session.value? e name = some value ∨
        ∃ v ∈ visits s calls, e = v.1.endpoint ∧ Stored (v.1.replies v.2) name value := by
  induction calls generalizing s with
  | nil => simp [runAll, visits]
  | cons call rest ih =>
    have hrest : (runAll s (call :: rest)) = runAll (call.after s) rest := rfl
    rw [hrest, ih, (call.collects s).entries, visits, List.exists_mem_cons_iff, or_assoc]

/-- An entry that a call leaves behind is there at the end of the run. -/
theorem value?_runAll_of_visits {s t : State} {calls : List Call} {call : Call}
    (hvisit : (call, t) ∈ visits s calls) {e name : String} {value : Scalar}
    (h : (call.after t).session.value? e name = some value) :
    (runAll s calls).session.value? e name = some value := by
  induction calls generalizing s with
  | nil => cases hvisit
  | cons first rest ih =>
    rcases List.mem_cons.1 hvisit with heq | hvisit
    · cases heq
      exact (value?_runAll _ rest e name value).2 (.inl h)
    · exact ih hvisit

/-- A call that is repeated later finds the values that it had, and asks only for names that are
secret or that nobody gave it an answer to. -/
structure Repeats (call : Call) (s : State) (again : Call) (t : State) : Prop where
  values : ∀ name text, isSecret (marks call.content) name = false →
    (call.run s).values.get? name = some text → (again.run t).values.get? name = some text
  asks : ∀ r ∈ again.replies t, r.1.password = true ∨ call.prompter = none ∨
    ∃ why, (r.1, .error why) ∈ call.replies s

/-- A call repeats where everything that it left behind is still there. -/
theorem repeats_of_kept {call again : Call} {s t : State} (hcontent : again.content = call.content)
    (hendpoint : again.endpoint = call.endpoint)
    (hkept : ∀ name value, (call.after s).session.value? call.endpoint name = some value →
      t.session.value? call.endpoint name = some value) :
    Repeats call s again t := by
  constructor
  · intro name text hplain hvalue
    obtain ⟨hmem, value, hafter, rfl⟩ := Call.exists_value?_after hplain hvalue
    rw [(again.collects t).values, hcontent, hendpoint]
    refine .inl ⟨hmem, hplain, ?_⟩
    rw [Session.get?, hkept name value hafter]
    rfl
  · intro r hr
    obtain ⟨p, hp, hwanted, hq⟩ := Call.exists_of_mem_replies (r := r.2) hr
    rw [hcontent] at hp
    rw [hendpoint] at hwanted
    rw [← hq]
    cases hsecret : p.secret with
    | true => exact .inl hsecret
    | false =>
      refine .inr ?_
      cases hprompter : call.prompter with
      | none => exact .inl rfl
      | some ask =>
        -- The name has no entry now, so the first call left none.
        have hnow := value?_eq_none_of_remembered? hwanted hsecret
        refine .inr (Call.exists_failed hprompter hp hsecret ?_)
        refine Option.eq_none_iff_forall_ne_some.2 fun value hafter => ?_
        have := hkept p.name value hafter
        rw [hnow] at this
        cases this

/-- User inputs over whole runs: what every call asks, returns and stores; what is asked and stored
altogether; and what happens when one of the calls is repeated at the end. -/
theorem inputs_remembered (start : State) (calls : List Call) :
    (∀ v ∈ visits start calls, v.1.Collects v.2) ∧
    ((runAll start calls).journal.prompts = start.journal.prompts ++
      (visits start calls).flatMap fun v => (v.1.replies v.2).map (·.1)) ∧
    (∀ e name value, (runAll start calls).session.value? e name = some value ↔
      start.session.value? e name = some value ∨
        ∃ v ∈ visits start calls, e = v.1.endpoint ∧ Stored (v.1.replies v.2) name value) ∧
    ∀ v ∈ visits start calls, ∀ again : Call, again.content = v.1.content →
      again.endpoint = v.1.endpoint → Repeats v.1 v.2 again (runAll start calls) := by
  refine ⟨fun v _ => v.1.collects v.2, prompts_runAll start calls, value?_runAll start calls, ?_⟩
  intro v hv again hcontent hendpoint
  exact repeats_of_kept hcontent hendpoint fun name value => value?_runAll_of_visits hv

/-- The second sign-in, by another URL of the same endpoint, asks again for the secret and for the
note that was not given, and knows the user. -/
theorem inputs_remembered_sign_in :
    let signIn (url : String) : Call :=
      ⟨"{{:user}} {{:pin}} {{:note}} {{:pin!secret}} {{:user}}", url,
        some fun _ q => if q.name = "note" then .error "closed" else .ok q.name,
        Url.Domain.toAscii?⟩
    let first := signIn "https://me@example.com/in#top"
    let again := signIn "http://example.com/in"
    let start : State := ⟨.empty, []⟩
    (first, start) ∈ visits start [first] ∧
    again.content = first.content ∧ again.endpoint = first.endpoint ∧
    first.Collects start ∧ Repeats first start again (runAll start [first]) ∧
    (first.replies start).map (·.1.name) = ["user", "pin", "note"] ∧
    (again.replies (runAll start [first])).map (·.1.name) = ["pin", "note"] ∧
    (again.run (runAll start [first])).values.get? "user" = some "user" := by
  intro signIn first again start
  have hvisit : (first, start) ∈ visits start [first] := List.mem_cons_self
  have hendpoint : again.endpoint = first.endpoint := by decide +kernel
  obtain ⟨hcollects, -, -, hrepeats⟩ := inputs_remembered start [first]
  have hrepeat := hrepeats (first, start) hvisit again rfl hendpoint
  have hplain : isSecret (marks first.content) "user" = false := by decide +kernel
  have huser : (first.run start).values.get? "user" = some "user" := by decide +kernel
  exact ⟨hvisit, rfl, hendpoint, hcollects (first, start) hvisit, hrepeat, by decide +kernel,
    by decide +kernel, hrepeat.values "user" "user" hplain huser⟩

end Stencil.Collection
