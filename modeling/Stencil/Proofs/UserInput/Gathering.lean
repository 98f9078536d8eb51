import Stencil.Collection
import Stencil.Proofs.UserInput.Detection

/-!
# Gathering the values of some names

What is asked for some names depends on the store alone (`due`), and what is said on the user and
on how much was asked before (`replies`). A collection then grows by what was remembered and what
was answered, and its store by the answers that are not secret (`Gathers`). One name does so
(`gathers_one`); several do because their names differ, so that no name meets what another one
left behind (`Gathers.cons`, `gathers_foldl`).
-/

namespace Stencil.Collection

open UserInput

/-! ## Questions and replies -/

/-- The questions for the names that have no usable value in a store. -/
def due (session : Session) (endpoint : String) (ps : List Pattern) : List Prompt :=
  (ps.filter fun p => (remembered? session endpoint p).isNone).map question

/-- What a user says to some questions, when `asked` others were asked before; nothing is said
when there is nobody to ask. -/
def replies (prompter : Option Prompter) (asked : Nat) (qs : List Prompt) :
    List (Prompt × Except String String) :=
  match prompter with
  | none => []
  | some ask => (qs.zipIdx asked).map fun (q, i) => (q, ask i q)

/-- A reply that is to be remembered: the answer to a question that is not secret. -/
def Stored (rs : List (Prompt × Except String String)) (name : String) (value : Scalar) : Prop :=
  ∃ q v, (q, .ok v) ∈ rs ∧ q.name = name ∧ q.password = false ∧ value = .text v

variable {endpoint : String} {prompter : Option Prompter} {p : Pattern} {ps : List Pattern}
  {c c' c'' : Collection} {session session' : Session} {qs : List Prompt} {n : Nat}

theorem due_cons (p : Pattern) (ps : List Pattern) :
    due session endpoint (p :: ps) = due session endpoint [p] ++ due session endpoint ps := by
  unfold due
  rw [← List.map_append, ← List.filter_append]
  rfl

theorem due_congr
    (h : ∀ p ∈ ps, remembered? session' endpoint p = remembered? session endpoint p) :
    due session' endpoint ps = due session endpoint ps := by
  unfold due
  refine congrArg _ (List.filter_congr fun p hp => ?_)
  rw [h p hp]

theorem mem_due {q : Prompt} :
    q ∈ due session endpoint ps ↔
      ∃ p ∈ ps, remembered? session endpoint p = none ∧ question p = q := by
  simp [due, and_assoc]

theorem replies_append (qs qs' : List Prompt) :
    replies prompter n (qs ++ qs') =
      replies prompter n qs ++ replies prompter (n + qs.length) qs' := by
  cases prompter with
  | none => rfl
  | some ask => simp [replies, List.zipIdx_append]

theorem map_fst_replies (ask : Prompter) (n : Nat) (qs : List Prompt) :
    (replies (some ask) n qs).map (·.1) = qs := by
  simp [replies, Function.comp_def]

/-- Every reply is to one of the questions. -/
theorem mem_of_mem_replies {q : Prompt} {r : Except String String}
    (h : (q, r) ∈ replies prompter n qs) : q ∈ qs := by
  cases prompter with
  | none => cases h
  | some ask =>
    obtain ⟨⟨q', i⟩, hmem, heq⟩ := List.mem_map.1 h
    obtain ⟨rfl, -⟩ := Prod.mk.injEq .. ▸ heq
    exact List.fst_mem_of_mem_zipIdx hmem

/-- Where somebody can be asked, every question has a reply. -/
theorem exists_reply {ask : Prompter} {q : Prompt} (h : q ∈ qs) (n : Nat) :
    ∃ r, (q, r) ∈ replies (some ask) n qs := by
  obtain ⟨i, hi, rfl⟩ := List.getElem_of_mem h
  refine ⟨ask (n + i) qs[i], List.mem_map.2 ⟨(qs[i], n + i), ?_, rfl⟩⟩
  exact List.mk_add_mem_zipIdx_iff_getElem?.2 (List.getElem?_eq_getElem hi)

theorem Stored.append_iff {rs rs' : List (Prompt × Except String String)} {name : String}
    {value : Scalar} : Stored (rs ++ rs') name value ↔ Stored rs name value ∨ Stored rs' name value := by
  simp only [Stored, List.mem_append]
  constructor
  · rintro ⟨q, v, h | h, hrest⟩
    · exact .inl ⟨q, v, h, hrest⟩
    · exact .inr ⟨q, v, h, hrest⟩
  · rintro (⟨q, v, h, hrest⟩ | ⟨q, v, h, hrest⟩)
    · exact ⟨q, v, .inl h, hrest⟩
    · exact ⟨q, v, .inr h, hrest⟩

theorem Stored.name_mem {name : String} {value : Scalar}
    (h : Stored (replies prompter n (due session endpoint ps)) name value) :
    name ∈ ps.map (·.name) := by
  obtain ⟨q, v, hq, rfl, -⟩ := h
  obtain ⟨p, hp, -, rfl⟩ := mem_due.1 (mem_of_mem_replies hq)
  exact List.mem_map.2 ⟨p, hp, rfl⟩

/-! ## The names of a content -/

/-- The replies to the questions for some names. -/
def said (endpoint : String) (prompter : Option Prompter) (ps : List Pattern) (c : Collection) :
    List (Prompt × Except String String) :=
  replies prompter c.journal.asked (due c.session endpoint ps)

/-- How collecting the values of some names changes a collection. -/
structure Gathers (endpoint : String) (prompter : Option Prompter) (ps : List Pattern)
    (c c' : Collection) : Prop where
  prompts : c'.journal.prompts =
    c.journal.prompts ++ (said endpoint prompter ps c).map (·.1)
  asked : c'.journal.asked = c.journal.asked + (said endpoint prompter ps c).length
  path : c'.session.path? = c.session.path?
  /-- Entries are only added, and only those that are to be remembered. -/
  value? : ∀ e name value, c'.session.value? e name = some value ↔
    c.session.value? e name = some value ∨
      e = endpoint ∧ Stored (said endpoint prompter ps c) name value
  /-- Other endpoints are left alone. -/
  elsewhere : ∀ e, e ≠ endpoint → c'.session.entries.get? e = c.session.entries.get? e
  /-- Without anything to be remembered the store stays. -/
  unchanged : (∀ name value, ¬ Stored (said endpoint prompter ps c) name value) →
    c'.session = c.session
  values : ∀ name text, c'.values.get? name = some text ↔
    c.values.get? name = some text ∨
      (∃ p ∈ ps, p.name = name ∧ remembered? c.session endpoint p = some text) ∨
      ∃ q, (q, .ok text) ∈ said endpoint prompter ps c ∧ q.name = name

theorem value?_eq_none_of_remembered? (h : remembered? session endpoint p = none)
    (hplain : p.secret = false) : session.value? endpoint p.name = none := by
  simpa [remembered?, hplain, Session.get?] using h

/-- Nothing is said where a value is remembered or nobody can be asked. -/
theorem said_eq_nil {text : String} (h : remembered? c.session endpoint p = some text) :
    said endpoint prompter [p] c = [] := by
  cases prompter <;> simp [said, replies, due, h]

theorem said_nobody : said endpoint none ps c = [] := rfl

theorem said_singleton {ask : Prompter} (h : remembered? c.session endpoint p = none) :
    said endpoint (some ask) [p] c = [(question p, ask c.journal.asked (question p))] := by
  simp [said, replies, due, h]

theorem gathers_nil : Gathers endpoint prompter [] c c := by
  have nothing : said endpoint prompter [] c = [] := by cases prompter <;> rfl
  constructor <;> simp [nothing, Stored]

theorem value?_set_iff {name e n : String} (h : session.value? endpoint name = none)
    (value value' : Scalar) :
    (session.set endpoint name value).value? e n = some value' ↔
      session.value? e n = some value' ∨ e = endpoint ∧ n = name ∧ value' = value := by
  rw [Session.value?_set]
  by_cases hname : e = endpoint ∧ n = name
  · obtain ⟨rfl, rfl⟩ := hname
    simp [h, eq_comm]
  · rw [if_neg hname]
    constructor
    · exact .inl
    · rintro (h | ⟨rfl, rfl, -⟩)
      · exact h
      · exact absurd ⟨rfl, rfl⟩ hname

/-- An answer is put among the values, and into the store unless the name is secret. -/
theorem gathers_answer {ask : Prompter} {text : String} (hfresh : c.values.get? p.name = none)
    (hr : remembered? c.session endpoint p = none)
    (hreply : ask c.journal.asked (question p) = .ok text) :
    Gathers endpoint (some ask) [p] c
      ({ c with journal := .prompt (question p) :: c.journal }.accept endpoint p text) := by
  have hsaid : said endpoint (some ask) [p] c = [(question p, .ok text)] := by
    rw [said_singleton hr, hreply]
  have hvalues : ∀ name text', (c.values.insert p.name text).get? name = some text' ↔
      c.values.get? name = some text' ∨
        (∃ p' ∈ [p], p'.name = name ∧ remembered? c.session endpoint p' = some text') ∨
        ∃ q, (q, .ok text') ∈ said endpoint (some ask) [p] c ∧ q.name = name := by
    intro name text'
    rw [hsaid, Dict.get?_insert]
    by_cases hname : name = p.name
    · subst hname
      simp [hfresh, hr, question, eq_comm]
    · simp [hname, hr, question, Ne.symm hname]
  have stored : ∀ name value, Stored (said endpoint (some ask) [p] c) name value ↔
      p.secret = false ∧ name = p.name ∧ value = .text text := by
    intro name value
    rw [hsaid]
    constructor
    · rintro ⟨q, v, hq, hname, hplain, rfl⟩
      cases List.mem_singleton.1 hq
      exact ⟨hplain, hname.symm, rfl⟩
    · rintro ⟨hplain, rfl, rfl⟩
      exact ⟨question p, text, List.mem_singleton_self _, rfl, hplain, rfl⟩
  cases hsecret : p.secret with
  | true =>
    constructor
    case prompts => simp [accept, hsaid]
    case asked => simp [accept, hsaid]
    case path => simp [accept, hsecret]
    case value? =>
      intro e name value
      simp [accept, hsecret, stored]
    case elsewhere =>
      intro e he
      simp [accept, hsecret]
    case unchanged =>
      intro _
      simp [accept, hsecret]
    case values => exact hvalues
  | false =>
    have hnone := value?_eq_none_of_remembered? hr hsecret
    constructor
    case prompts => simp [accept, hsaid]
    case asked => simp [accept, hsaid]
    case path => simp [accept, hsecret, Session.set]
    case value? =>
      intro e name value
      simpa [accept, hsecret, stored] using value?_set_iff hnone (.text text) value
    case elsewhere =>
      intro e he
      simp [accept, hsecret, Session.set, he]
    case unchanged =>
      intro h
      exact absurd ((stored _ _).2 ⟨hsecret, rfl, rfl⟩) (h p.name (.text text))
    case values => exact hvalues

/-- One name. -/
theorem gathers_one (hfresh : c.values.get? p.name = none) :
    Gathers endpoint prompter [p] c (collectOne endpoint prompter c p) := by
  unfold collectOne
  cases hr : remembered? c.session endpoint p with
  | some text =>
    have nothing : said endpoint prompter [p] c = [] := said_eq_nil hr
    constructor <;> simp [nothing, Stored]
    intro name text'
    by_cases hname : name = p.name
    · subst hname
      simp [hfresh, hr]
    · simp [hname, Ne.symm hname]
  | none =>
    cases prompter with
    | none => constructor <;> simp [said_nobody, Stored, hr]
    | some ask =>
      simp only [Surroundings.ask]
      cases hreply : ask c.journal.asked (question p) with
      | error text =>
        have hsaid : said endpoint (some ask) [p] c = [(question p, .error text)] := by
          rw [said_singleton hr, hreply]
        constructor <;> simp [hsaid, Stored, hr]
      | ok text => exact gathers_answer hfresh hr hreply

section Several

variable {name : String}

/-- A name that is not among the collected ones keeps its value. -/
theorem Gathers.value?_of_not_mem (h : Gathers endpoint prompter ps c c')
    (hname : name ∉ ps.map (·.name)) (e : String) :
    c'.session.value? e name = c.session.value? e name := by
  refine Option.ext fun value => ?_
  rw [h.value? e name value]
  constructor
  · rintro (hold | ⟨-, hstored⟩)
    · exact hold
    · exact absurd hstored.name_mem hname
  · exact .inl

theorem name_ne_of_mem {p' : Pattern} (hp : p.name ∉ ps.map (·.name)) (hp' : p' ∈ ps) :
    p'.name ≠ p.name := by
  intro heq
  exact hp (List.mem_map.2 ⟨p', hp', heq⟩)

/-- What is remembered for the other names is the same before and after one name. -/
theorem Gathers.remembered?_eq (h : Gathers endpoint prompter [p] c c')
    (hp : p.name ∉ ps.map (·.name)) {p' : Pattern} (hp' : p' ∈ ps) :
    remembered? c'.session endpoint p' = remembered? c.session endpoint p' := by
  have hne : p'.name ∉ [p].map (·.name) := by simpa using name_ne_of_mem hp hp'
  simp only [remembered?, Session.get?, h.value?_of_not_mem hne]

theorem said_cons (h : Gathers endpoint prompter [p] c c') (hp : p.name ∉ ps.map (·.name)) :
    said endpoint prompter (p :: ps) c =
      said endpoint prompter [p] c ++ said endpoint prompter ps c' := by
  have hdue : due c'.session endpoint ps = due c.session endpoint ps :=
    due_congr fun p' hp' => h.remembered?_eq hp hp'
  have hasked := h.asked
  cases prompter with
  | none => rfl
  | some ask =>
    have hlength : (said endpoint (some ask) [p] c).length =
        (due c.session endpoint [p]).length := by
      simp [said, replies]
    rw [said, due_cons, replies_append, said, said, hdue, hasked, hlength]

/-- What one name does and what the others do after it. -/
theorem Gathers.cons (h : Gathers endpoint prompter [p] c c')
    (h' : Gathers endpoint prompter ps c' c'') (hp : p.name ∉ ps.map (·.name)) :
    Gathers endpoint prompter (p :: ps) c c'' := by
  have hsaid := said_cons h hp
  constructor
  case prompts => rw [h'.prompts, h.prompts, hsaid, List.map_append, List.append_assoc]
  case asked => rw [h'.asked, h.asked, hsaid, List.length_append, Nat.add_assoc]
  case path => rw [h'.path, h.path]
  case value? =>
    intro e name value
    rw [h'.value?, h.value?, hsaid, Stored.append_iff]
    tauto
  case elsewhere =>
    intro e he
    rw [h'.elsewhere e he, h.elsewhere e he]
  case unchanged =>
    intro nothing
    simp only [hsaid, Stored.append_iff, not_or] at nothing
    rw [h'.unchanged fun name value => (nothing name value).2,
      h.unchanged fun name value => (nothing name value).1]
  case values =>
    intro name text
    have hlater : (∃ p' ∈ ps, p'.name = name ∧ remembered? c'.session endpoint p' = some text) ↔
        ∃ p' ∈ ps, p'.name = name ∧ remembered? c.session endpoint p' = some text :=
      exists_congr fun p' => and_congr_right fun hp' => by rw [h.remembered?_eq hp hp']
    rw [h'.values, h.values, hlater, hsaid]
    simp only [List.mem_append, List.mem_cons, List.not_mem_nil, or_false, exists_eq_left,
      or_and_right, exists_or]
    simp only [or_assoc, or_left_comm]

/-- All names of a content, from a collection that has a value for none of them. -/
theorem gathers_foldl (hdistinct : (ps.map (·.name)).Nodup)
    (hfresh : ∀ p ∈ ps, c.values.get? p.name = none) :
    Gathers endpoint prompter ps c (ps.foldl (collectOne endpoint prompter) c) := by
  induction ps generalizing c with
  | nil => exact gathers_nil
  | cons p ps ih =>
    obtain ⟨hp, hps⟩ := List.nodup_cons.1 hdistinct
    have hone : Gathers endpoint prompter [p] c (collectOne endpoint prompter c p) :=
      gathers_one (hfresh p List.mem_cons_self)
    refine hone.cons (ih hps fun p' hp' => ?_) hp
    -- The first name put nothing under a later one.
    have hne : p'.name ≠ p.name := name_ne_of_mem hp hp'
    refine Option.eq_none_iff_forall_ne_some.2 fun text htext => ?_
    rcases (hone.values _ _).1 htext with hold | ⟨q, hq, heq, -⟩ | ⟨q, hq, heq⟩
    · rw [hfresh p' (List.mem_cons_of_mem _ hp')] at hold
      cases hold
    · obtain rfl := List.mem_singleton.1 hq
      exact hne heq.symm
    · obtain ⟨p'', hp'', -, rfl⟩ := mem_due.1 (mem_of_mem_replies hq)
      obtain rfl := List.mem_singleton.1 hp''
      exact hne heq.symm

end Several

end Stencil.Collection
