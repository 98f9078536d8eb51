import Stencil.Environment.Configuration
import Stencil.Proofs.Except
import Stencil.Proofs.Json.Members

/-!
# What configuration files say

A document is an acceptable configuration if its members are, which is said of what it holds under
each key (`Acceptable`), and a table is the one that it describes if it has the same environments,
shared entries and selection (`Describes`). A document is read exactly if it is acceptable, and
then as the table that it describes (`ofJson_eq_ok_iff`).

Reading one member changes one place of the table (`readMember_eq_ok_iff`), so each place has what
the last member that writes it says (`readMembers_decides`).
-/

namespace Stencil.Configuration

/-! ## The documents -/

/-- The keys of the shared entries. -/
def IsShared (key : String) : Prop := key = "$shared" ∨ key = "shared"

/-- The keys that are no names of environments. -/
def IsReserved (key : String) : Prop := IsShared key ∨ key = "$default"

instance : DecidablePred IsShared := fun key =>
  inferInstanceAs (Decidable (key = "$shared" ∨ key = "shared"))

instance : DecidablePred IsReserved := fun key =>
  inferInstanceAs (Decidable (IsShared key ∨ key = "$default"))

theorem IsShared.ne_default {key : String} (h : IsShared key) : key ≠ "$default" := by
  rintro rfl
  exact absurd h (by decide)

/-- A letter or an underscore, and then letters, digits, underscores and hyphens. -/
def IsEnvironmentName (name : String) : Prop :=
  ∃ first rest, name.toList = first :: rest ∧ (first.isAlpha ∨ first = '_') ∧
    ∀ c ∈ rest, c.isAlphanum ∨ c = '_' ∨ c = '-'

/-- An object of scalars. -/
def IsVariableMap (j : Json) : Prop :=
  (∃ members, j = .object members) ∧ ∀ key value, j.Holds key value → value.IsScalar

/-- The text of a scalar that an object holds under a key. -/
def Says (map : Json) (key text : String) : Prop :=
  ∃ value scalar, map.Holds key value ∧ Scalar.ofJson? value = some scalar ∧ scalar.toText = text

/-- The name that a document selects. -/
def Selects (j : Json) (name : String) : Prop :=
  ∃ literal, j.Holds "$default" (.string literal) ∧ Json.text? literal = some name

/-- The shared entries of a document: `shared`, and `$shared` where there is none. -/
def Shares (j map : Json) : Prop :=
  j.Holds "shared" map ∨ (∀ value, ¬ j.Holds "shared" value) ∧ j.Holds "$shared" map

/-- A member that the root may have. -/
structure Fits (key : String) (value : Json) : Prop where
  map : key ≠ "$default" → IsVariableMap value
  name : ¬ IsReserved key → IsEnvironmentName key

/-- An object that is a configuration. -/
structure Acceptable (j : Json) : Prop where
  fits : ∀ key value, j.Holds key value → Fits key value
  selected : ∀ name, Selects j name → ¬ IsReserved name ∧ ∃ value, j.Holds name value

/-- A table that has what a document says, and nothing else. -/
structure Describes (j : Json) (table : EnvironmentTable) : Prop where
  environments : ∀ key env, table.environments.get? key = some env ↔
    ¬ IsReserved key ∧ env.name = key ∧
      ∃ map, j.Holds key map ∧ ∀ k text, env.entries.get? k = some text ↔ Says map k text
  shared : ∀ k text, table.shared.get? k = some text ↔ ∃ map, Shares j map ∧ Says map k text
  selected : ∀ name, table.default? = some name ↔ Selects j name
  selectsEnvironment : ∀ name, table.default? = some name →
    ∃ env, table.environments.get? name = some env

/-! ## Variables -/

theorem readEntries_cons (name key : String) (value : Json) (l : List (String × Json)) :
    readEntries name ((key, value) :: l) =
      (match Scalar.ofJson? value with
        | none => .error (.notScalar key name)
        | some s => readEntries name l >>= fun texts => .ok ((key, s.toText) :: texts)) := rfl

theorem exists_readEntries_iff {name : String} {l : List (String × Json)} :
    (∃ texts, readEntries name l = .ok texts) ↔ ∀ e ∈ l, (Scalar.ofJson? e.2).isSome := by
  induction l with
  | nil => simp [readEntries]
  | cons e l ih =>
      obtain ⟨key, value⟩ := e
      rw [List.forall_mem_cons, ← ih, readEntries_cons]
      cases Scalar.ofJson? value with
      | none => simp
      | some s => cases readEntries name l <;> simp [bind, Except.bind]

/-- The texts of entries, each under the key of its entry. -/
theorem find?_readEntries {name : String} {l : List (String × Json)}
    {texts : List (String × String)} (h : readEntries name l = .ok texts) :
    texts.map (·.1) = l.map (·.1) ∧ ∀ k, Entries.find? k texts =
      (Entries.find? k l).bind fun value => (Scalar.ofJson? value).map Scalar.toText := by
  induction l generalizing texts with
  | nil =>
      cases h
      exact ⟨rfl, fun _ => rfl⟩
  | cons e l ih =>
      obtain ⟨key, value⟩ := e
      rw [readEntries_cons] at h
      split at h
      next => cases h
      next s hs =>
        obtain ⟨rest, hrest, h⟩ := exists_of_bind_eq_ok h
        cases h
        obtain ⟨hkeys, hfind⟩ := ih hrest
        refine ⟨by rw [List.map_cons, hkeys, List.map_cons], fun k => ?_⟩
        rw [Entries.find?, Entries.find?]
        split
        · simp [hs]
        · exact hfind k

/-- The variables of an object are the texts of the scalars that it holds. -/
theorem get?_of_readVariables {name : String} {j : Json} {entries : Dict String}
    (h : readVariables name j = .ok entries) (k text : String) :
    entries.get? k = some text ↔ Says j k text := by
  rw [readVariables] at h
  split at h
  next => cases h
  next members hmembers =>
    cases htexts : readEntries name members.toList with
    | error fault =>
        rw [htexts] at h
        cases h
    | ok texts =>
        rw [htexts] at h
        cases h
        obtain ⟨hkeys, hfind⟩ := find?_readEntries htexts
        have hascending : Entries.Ascending texts := by
          have hmap := List.pairwise_map.2 members.ascending
          rw [← hkeys] at hmap
          exact List.pairwise_map.1 hmap
        have hget : (Dict.ofList texts).get? k =
            (members.get? k).bind fun value => (Scalar.ofJson? value).map Scalar.toText := by
          rw [Dict.ofList, Dict.get?_insertAll _ hascending, hfind, Dict.get?_empty, Option.or_none]
          rfl
        rw [hget, Option.bind_eq_some_iff]
        constructor
        · rintro ⟨value, hvalue, hsome⟩
          obtain ⟨scalar, hscalar, htext⟩ := Option.map_eq_some_iff.1 hsome
          exact ⟨value, scalar, (Json.get?_of_asDict? hmembers).1 hvalue, hscalar, htext⟩
        · rintro ⟨value, scalar, hvalue, hscalar, htext⟩
          exact ⟨value, (Json.get?_of_asDict? hmembers).2 hvalue,
            Option.map_eq_some_iff.2 ⟨scalar, hscalar, htext⟩⟩

theorem exists_readVariables_iff {name : String} {j : Json} (hj : j.HasValue) :
    (∃ entries, readVariables name j = .ok entries) ↔ IsVariableMap j := by
  rw [readVariables, IsVariableMap, ← hj.isSome_asDict?]
  cases hmembers : Json.asDict? some j with
  | none => simp
  | some members =>
      have hentries : (∃ entries, (readEntries name members.toList).map Dict.ofList = .ok entries) ↔
          ∃ texts, readEntries name members.toList = .ok texts := by
        cases readEntries name members.toList <;> simp [Except.map]
      rw [hentries, exists_readEntries_iff]
      refine ⟨fun h => ⟨rfl, fun key value hvalue => ?_⟩, fun h e he => ?_⟩
      · have hmem := Dict.get?_eq_some_iff.1 ((Json.get?_of_asDict? hmembers).2 hvalue)
        exact (hj.of_holds hvalue).isSome_ofJson?.1 (h (key, value) hmem)
      · have hvalue := (Json.get?_of_asDict? hmembers).1 (Dict.get?_of_mem he)
        exact (hj.of_holds hvalue).isSome_ofJson?.2 (h.2 e.1 e.2 hvalue)

/-! ## Members of the root -/

theorem isEnvironmentName_iff {key : String} (h : key ≠ "shared") :
    isName key = true ↔ IsEnvironmentName key := by
  rw [isName, IsEnvironmentName, bne_iff_ne.2 h, Bool.true_and]
  cases key.toList with
  | nil => simp
  | cons c r =>
      simp only [Bool.and_eq_true, Bool.or_eq_true, beq_iff_eq, List.all_eq_true, or_assoc]
      constructor
      · rintro ⟨hc, hr⟩
        exact ⟨c, r, rfl, hc, hr⟩
      · rintro ⟨first, rest, heq, hfirst, hrest⟩
        obtain ⟨rfl, rfl⟩ := List.cons.inj heq
        exact ⟨hfirst, hrest⟩

/-- What reading one member does to a table. -/
inductive Reads (table : EnvironmentTable) (value : Json) : String → EnvironmentTable → Prop
  | shared {key : String} {entries : Dict String} (name : IsShared key)
      (read : readVariables "$shared" value = .ok entries) :
      Reads table value key { table with shared := entries }
  | default : Reads table value "$default" { table with default? := Json.asText? value }
  | environment {key : String} {entries : Dict String} (name : IsEnvironmentName key)
      (unreserved : ¬ IsReserved key) (read : readVariables key value = .ok entries) :
      Reads table value key
        { table with environments := table.environments.insert key ⟨key, entries⟩ }

theorem readMember_of_shared {key : String} (h : IsShared key) (table : EnvironmentTable)
    (value : Json) : readMember table key value =
      (readVariables "$shared" value).map fun entries => { table with shared := entries } := by
  have hkey : key = EnvironmentTable.sharedName ∨ key = "shared" := h
  rw [readMember, if_pos hkey, EnvironmentTable.sharedName]
  cases readVariables "$shared" value with
  | error fault => rfl
  | ok entries => rfl

theorem readMember_default (table : EnvironmentTable) (value : Json) :
    readMember table "$default" value = .ok { table with default? := Json.asText? value } := rfl

theorem readMember_of_unreserved {key : String} (h : ¬ IsReserved key) (table : EnvironmentTable)
    (value : Json) : readMember table key value =
      if isName key then (readVariables key value).map fun entries =>
        { table with environments := table.environments.insert key ⟨key, entries⟩ }
      else .error (.environmentName key) := by
  obtain ⟨hshared, hdefault⟩ := not_or.1 h
  have hkey : ¬ (key = EnvironmentTable.sharedName ∨ key = "shared") := hshared
  rw [readMember, if_neg hkey, if_neg hdefault]
  cases isName key with
  | false => rfl
  | true =>
      cases readVariables key value with
      | error fault => rfl
      | ok entries => exact congrArg Except.ok (if_neg (not_or.1 hkey).1)

theorem readMember_eq_ok_iff {table table' : EnvironmentTable} {key : String} {value : Json} :
    readMember table key value = .ok table' ↔ Reads table value key table' := by
  constructor
  · intro h
    by_cases hdefault : key = "$default"
    · subst hdefault
      rw [readMember_default] at h
      cases h
      exact .default
    by_cases hshared : IsShared key
    · rw [readMember_of_shared hshared] at h
      obtain ⟨entries, hentries, rfl⟩ := exists_of_map_eq_ok h
      exact .shared hshared hentries
    · have hunreserved : ¬ IsReserved key := not_or.2 ⟨hshared, hdefault⟩
      rw [readMember_of_unreserved hunreserved] at h
      split at h
      next hname =>
        obtain ⟨entries, hentries, rfl⟩ := exists_of_map_eq_ok h
        have hne : key ≠ "shared" := fun heq => hshared (.inr heq)
        exact .environment ((isEnvironmentName_iff hne).1 hname) hunreserved hentries
      next => cases h
  · intro h
    cases h with
    | shared hname hentries =>
        rw [readMember_of_shared hname, hentries]
        rfl
    | default => exact readMember_default table value
    | environment hname hunreserved hentries =>
        have hne : key ≠ "shared" := fun heq => hunreserved (.inl (.inr heq))
        rw [readMember_of_unreserved hunreserved, if_pos ((isEnvironmentName_iff hne).2 hname),
          hentries]
        rfl

theorem exists_reads_iff (table : EnvironmentTable) {key : String} {value : Json}
    (hvalue : value.HasValue) : (∃ table', Reads table value key table') ↔ Fits key value := by
  constructor
  · rintro ⟨table', h⟩
    cases h with
    | shared hname hentries =>
        exact ⟨fun _ => (exists_readVariables_iff hvalue).1 ⟨_, hentries⟩,
          fun h => absurd (.inl hname) h⟩
    | default => exact ⟨fun h => absurd rfl h, fun h => absurd (.inr rfl) h⟩
    | environment hname _ hentries =>
        exact ⟨fun _ => (exists_readVariables_iff hvalue).1 ⟨_, hentries⟩, fun _ => hname⟩
  · intro h
    by_cases hdefault : key = "$default"
    · subst hdefault
      exact ⟨_, .default⟩
    by_cases hshared : IsShared key
    · obtain ⟨entries, hentries⟩ := (exists_readVariables_iff hvalue).2 (h.map hdefault)
      exact ⟨_, .shared hshared hentries⟩
    · have hunreserved : ¬ IsReserved key := not_or.2 ⟨hshared, hdefault⟩
      obtain ⟨entries, hentries⟩ := (exists_readVariables_iff hvalue).2 (h.map hdefault)
      exact ⟨_, .environment (h.name hunreserved) hunreserved hentries⟩

/-! ## All members of the root -/

theorem exists_readMembers_iff {l : List (String × Json)} (hvalues : ∀ e ∈ l, e.2.HasValue)
    (table : EnvironmentTable) :
    (∃ table', readMembers table l = .ok table') ↔ ∀ e ∈ l, Fits e.1 e.2 := by
  induction l generalizing table with
  | nil => simp [readMembers]
  | cons e l ih =>
      obtain ⟨hvalue, hl⟩ := List.forall_mem_cons.1 hvalues
      rw [List.forall_mem_cons, ← exists_reads_iff table hvalue]
      constructor
      · rintro ⟨table', h⟩
        obtain ⟨next, hnext, h⟩ := exists_of_bind_eq_ok h
        exact ⟨⟨next, readMember_eq_ok_iff.1 hnext⟩, (ih hl next).1 ⟨table', h⟩⟩
      · rintro ⟨⟨next, hnext⟩, hfits⟩
        obtain ⟨table', h⟩ := (ih hl next).2 hfits
        refine ⟨table', ?_⟩
        rw [readMembers, readMember_eq_ok_iff.2 hnext]
        exact h

/-- What no member changes is as before. -/
theorem readMembers_keeps {α : Type} {f : EnvironmentTable → α} {l : List (String × Json)}
    (hkeeps : ∀ e ∈ l, ∀ table table', Reads table e.2 e.1 table' → f table' = f table)
    {table table' : EnvironmentTable} (h : readMembers table l = .ok table') :
    f table' = f table := by
  induction l generalizing table with
  | nil =>
      cases h
      rfl
  | cons e l ih =>
      obtain ⟨hfirst, hl⟩ := List.forall_mem_cons.1 hkeeps
      obtain ⟨next, hnext, h⟩ := exists_of_bind_eq_ok h
      rw [ih hl h, hfirst _ _ (readMember_eq_ok_iff.1 hnext)]

/-- The last member that changes something decides. -/
theorem readMembers_last {α : Type} {f : EnvironmentTable → α} {before after : List (String × Json)}
    {key : String} {value : Json}
    (hkeeps : ∀ e ∈ after, ∀ table table', Reads table e.2 e.1 table' → f table' = f table)
    {table table' : EnvironmentTable}
    (h : readMembers table (before ++ (key, value) :: after) = .ok table') :
    ∃ last next, Reads last value key next ∧ f table' = f next := by
  induction before generalizing table with
  | nil =>
      obtain ⟨next, hnext, h⟩ := exists_of_bind_eq_ok h
      exact ⟨table, next, readMember_eq_ok_iff.1 hnext, readMembers_keeps hkeeps h⟩
  | cons e before ih =>
      obtain ⟨next, -, h⟩ := exists_of_bind_eq_ok h
      exact ih h

/-- Of the members in the order of their keys the last one that changes something decides. -/
theorem readMembers_decides {α : Type} {f : EnvironmentTable → α} {d : Dict Json} {key : String}
    {value : Json} (hvalue : d.get? key = some value)
    (hkeeps : ∀ e ∈ d.toList, key < e.1 → ∀ table table', Reads table e.2 e.1 table' →
      f table' = f table)
    {table table' : EnvironmentTable} (h : readMembers table d.toList = .ok table') :
    ∃ last next, Reads last value key next ∧ f table' = f next := by
  obtain ⟨before, after, hlist, hafter⟩ := Dict.exists_of_get? hvalue
  have hmem : ∀ e ∈ after, e ∈ d.toList := fun e he => by simp [hlist, he]
  rw [hlist] at h
  exact readMembers_last (fun e he => hkeeps e (hmem e he) (hafter e he)) h

/-! ## The places of a table -/

section

variable {table table' : EnvironmentTable} {value : Json} {key : String}

theorem Reads.environment_eq (h : Reads table value key table') {name : String}
    (hname : key = name → IsReserved name) :
    table'.environments.get? name = table.environments.get? name := by
  cases h with
  | shared _ _ => rfl
  | default => rfl
  | environment _ hunreserved _ =>
      rw [Dict.get?_insert]
      refine if_neg fun heq => hunreserved ?_
      rw [← heq]
      exact hname heq.symm

theorem Reads.exists_environment (h : Reads table value key table') (hkey : ¬ IsReserved key) :
    ∃ entries : Dict String, table'.environments.get? key = some ⟨key, entries⟩ ∧
      ∀ k text, entries.get? k = some text ↔ Says value k text := by
  cases h with
  | shared hname _ => exact absurd (.inl hname) hkey
  | default => exact absurd (.inr rfl) hkey
  | @environment _ entries _ _ hentries =>
      refine ⟨entries, ?_, get?_of_readVariables hentries⟩
      rw [Dict.get?_insert, if_pos rfl]

theorem Reads.shared_eq (h : Reads table value key table')
    (hkey : ¬ IsShared key) : table'.shared = table.shared := by
  cases h with
  | shared hname _ => exact absurd hname hkey
  | default => rfl
  | environment _ _ _ => rfl

theorem Reads.get?_shared (h : Reads table value key table') (hkey : IsShared key)
    (k text : String) : table'.shared.get? k = some text ↔ Says value k text := by
  cases h with
  | shared _ hentries => exact get?_of_readVariables hentries k text
  | default => exact absurd hkey (by decide)
  | environment _ hunreserved _ => exact absurd (.inl hkey) hunreserved

theorem Reads.default_eq (h : Reads table value key table') (hkey : key ≠ "$default") :
    table'.default? = table.default? := by
  cases h with
  | shared _ _ => rfl
  | default => exact absurd rfl hkey
  | environment _ _ _ => rfl

theorem Reads.default_eq_text (h : Reads table value key table') (hkey : key = "$default") :
    table'.default? = Json.asText? value := by
  cases h with
  | shared hname _ => exact absurd hkey hname.ne_default
  | default => rfl
  | environment _ hunreserved _ => exact absurd (.inr hkey) hunreserved

end

/-! ## The table -/

section

variable {j : Json} {d : Dict Json} {table : EnvironmentTable}

theorem environments_of_readMembers (hd : Json.asDict? some j = some d)
    (h : readMembers .empty d.toList = .ok table) (key : String) (env : Environment) :
    table.environments.get? key = some env ↔ ¬ IsReserved key ∧ env.name = key ∧
      ∃ map, j.Holds key map ∧ ∀ k text, env.entries.get? k = some text ↔ Says map k text := by
  simp only [← Json.get?_of_asDict? hd]
  by_cases hreserved : IsReserved key
  · have hkept := readMembers_keeps (f := fun t => t.environments.get? key)
      (fun _ _ _ _ hreads => hreads.environment_eq fun _ => hreserved) h
    simp [hkept, hreserved, EnvironmentTable.empty]
  cases hvalue : d.get? key with
  | none =>
      have hkept := readMembers_keeps (f := fun t => t.environments.get? key)
        (fun e he _ _ hreads => hreads.environment_eq fun heq =>
          absurd heq (Dict.key_ne_of_get? hvalue he)) h
      simp [hkept, EnvironmentTable.empty]
  | some value =>
      obtain ⟨last, next, hnext, heq⟩ := readMembers_decides
        (f := fun t => t.environments.get? key) hvalue
        (fun _ _ hbehind _ _ hreads => hreads.environment_eq fun heq =>
          absurd heq (String.ne_of_lt hbehind).symm) h
      obtain ⟨entries, hentries, htexts⟩ := hnext.exists_environment hreserved
      simp only [hentries] at heq
      rw [heq]
      constructor
      · rintro ⟨rfl⟩
        exact ⟨hreserved, rfl, value, rfl, htexts⟩
      · obtain ⟨name, entries'⟩ := env
        rintro ⟨-, rfl, map, ⟨rfl⟩, htexts'⟩
        have heq : entries = entries' :=
          Dict.ext fun k => Option.ext fun text => (htexts k text).trans (htexts' k text).symm
        rw [heq]

theorem shares_iff (hd : Json.asDict? some j = some d) {map : Json} :
    Shares j map ↔ (d.get? "shared").or (d.get? "$shared") = some map := by
  simp only [Shares, ← Json.get?_of_asDict? hd]
  cases d.get? "shared" with
  | none => simp
  | some value => simp

theorem shared_of_readMembers (hd : Json.asDict? some j = some d)
    (h : readMembers .empty d.toList = .ok table) (k text : String) :
    table.shared.get? k = some text ↔ ∃ map, Shares j map ∧ Says map k text := by
  simp only [shares_iff hd]
  -- The entries are read in the order of their keys, so `shared` comes behind `$shared`.
  have hlt : "$shared" < "shared" := by decide
  cases hshared : d.get? "shared" with
  | some value =>
      obtain ⟨last, next, hnext, heq⟩ := readMembers_decides (f := fun t => t.shared) hshared
        (fun _ _ hbehind _ _ hreads => hreads.shared_eq (not_or.2
          ⟨(String.ne_of_lt (String.lt_trans hlt hbehind)).symm, (String.ne_of_lt hbehind).symm⟩)) h
      rw [heq, hnext.get?_shared (.inr rfl)]
      simp
  | none =>
      rw [Option.none_or]
      cases hname : d.get? "$shared" with
      | some value =>
          obtain ⟨last, next, hnext, heq⟩ := readMembers_decides (f := fun t => t.shared) hname
            (fun _ he hbehind _ _ hreads => hreads.shared_eq (not_or.2
              ⟨(String.ne_of_lt hbehind).symm, Dict.key_ne_of_get? hshared he⟩)) h
          rw [heq, hnext.get?_shared (.inl rfl)]
          simp
      | none =>
          have hkept := readMembers_keeps (f := fun t => t.shared)
            (fun _ he _ _ hreads => hreads.shared_eq (not_or.2
              ⟨Dict.key_ne_of_get? hname he, Dict.key_ne_of_get? hshared he⟩)) h
          simp [hkept, EnvironmentTable.empty]

theorem selected_of_readMembers (hd : Json.asDict? some j = some d)
    (h : readMembers .empty d.toList = .ok table) (name : String) :
    table.default? = some name ↔ Selects j name := by
  simp only [Selects, ← Json.get?_of_asDict? hd]
  cases hvalue : d.get? "$default" with
  | none =>
      have hkept := readMembers_keeps (f := fun t => t.default?)
        (fun _ he _ _ hreads => hreads.default_eq (Dict.key_ne_of_get? hvalue he)) h
      simp [hkept, EnvironmentTable.empty]
  | some value =>
      obtain ⟨last, next, hnext, heq⟩ := readMembers_decides (f := fun t => t.default?) hvalue
        (fun _ _ hbehind _ _ hreads => hreads.default_eq (String.ne_of_lt hbehind).symm) h
      rw [heq, hnext.default_eq_text rfl]
      cases value <;> simp [Json.asText?]

/-- The environments of the table are the members that are none of the reserved ones. -/
theorem exists_environment_iff (hj : j.HasValue) (hd : Json.asDict? some j = some d)
    (h : readMembers .empty d.toList = .ok table) (hfits : ∀ e ∈ d.toList, Fits e.1 e.2)
    (name : String) : (∃ env, table.environments.get? name = some env) ↔
      ¬ IsReserved name ∧ ∃ value, j.Holds name value := by
  simp only [environments_of_readMembers hd h]
  constructor
  · rintro ⟨env, hreserved, -, map, hmap, -⟩
    exact ⟨hreserved, map, hmap⟩
  · rintro ⟨hreserved, map, hmap⟩
    have hne : name ≠ "$default" := fun h => hreserved (.inr h)
    have hmember := Dict.get?_eq_some_iff.1 ((Json.get?_of_asDict? hd).2 hmap)
    have hread : ∃ entries, readVariables name map = .ok entries :=
      (exists_readVariables_iff (hj.of_holds hmap)).2 ((hfits (name, map) hmember).map hne)
    obtain ⟨entries, hentries⟩ := hread
    exact ⟨⟨name, entries⟩, hreserved, rfl, map, hmap, get?_of_readVariables hentries⟩

theorem ofJson_of_asDict? (hd : Json.asDict? some j = some d) : ofJson j = .ok table ↔
    readMembers .empty d.toList = .ok table ∧
      ∀ name, table.default? = some name → ∃ env, table.environments.get? name = some env := by
  rw [ofJson, hd]
  dsimp only
  cases readMembers .empty d.toList with
  | error fault =>
      refine ⟨fun h => (by cases h), fun h => ?_⟩
      cases h.1
  | ok read =>
      rw [ok_bind]
      cases hdefault : read.default? with
      | none =>
          refine ⟨fun h => ⟨h, fun name hname => ?_⟩, fun h => h.1⟩
          rw [← Except.ok.inj h, hdefault] at hname
          cases hname
      | some name =>
          dsimp only
          split
          next hcontains =>
            refine ⟨fun h => ⟨h, fun name' hname => ?_⟩, fun h => h.1⟩
            rw [← Except.ok.inj h, hdefault] at hname
            rw [← Except.ok.inj h, ← Option.some.inj hname]
            exact Option.isSome_iff_exists.1 hcontains
          next hcontains =>
            refine ⟨fun h => (by cases h), fun h => ?_⟩
            obtain ⟨heq, hexists⟩ := h
            rw [← Except.ok.inj heq] at hexists
            exact absurd (Option.isSome_iff_exists.2 (hexists name hdefault)) hcontains

theorem forall_fits_iff (hd : Json.asDict? some j = some d) :
    (∀ e ∈ d.toList, Fits e.1 e.2) ↔ ∀ key value, j.Holds key value → Fits key value := by
  simp only [← Json.get?_of_asDict? hd, Dict.get?_eq_some_iff]
  exact ⟨fun h key value hmem => h (key, value) hmem, fun h e he => h e.1 e.2 he⟩

end

/-! ## Documents and their tables -/

variable {j : Json} {table : EnvironmentTable}

/-- A document describes one table only. -/
theorem Describes.unique {other : EnvironmentTable} (h : Describes j table)
    (hother : Describes j other) : table = other := by
  have henvironments : table.environments = other.environments :=
    Dict.ext fun key => Option.ext fun env =>
      (h.environments key env).trans (hother.environments key env).symm
  have hshared : table.shared = other.shared :=
    Dict.ext fun k => Option.ext fun text => (h.shared k text).trans (hother.shared k text).symm
  have hdefault : table.default? = other.default? :=
    Option.ext fun name => (h.selected name).trans (hother.selected name).symm
  cases table
  cases other
  simp only at henvironments hshared hdefault
  rw [henvironments, hshared, hdefault]

theorem describes_of_ofJson (hj : j.HasValue) (h : ofJson j = .ok table) :
    Acceptable j ∧ Describes j table := by
  cases hd : Json.asDict? some j with
  | none =>
      rw [ofJson, hd] at h
      cases h
  | some d =>
      obtain ⟨hread, hselected⟩ := (ofJson_of_asDict? hd).1 h
      have hfits := (exists_readMembers_iff (fun _ => hj.of_mem_dict hd) .empty).1 ⟨table, hread⟩
      refine ⟨⟨(forall_fits_iff hd).1 hfits, fun name hname => ?_⟩, environments_of_readMembers hd hread,
        shared_of_readMembers hd hread, selected_of_readMembers hd hread, hselected⟩
      exact (exists_environment_iff hj hd hread hfits name).1
        (hselected name ((selected_of_readMembers hd hread name).2 hname))

/-- A member that is none of the reserved ones is the environment of its name. -/
theorem exists_environment_of_ofJson (hj : j.HasValue) (h : ofJson j = .ok table) {name : String}
    {map : Json} (hname : ¬ IsReserved name) (hmap : j.Holds name map) :
    ∃ env, table.environments.get? name = some env ∧
      ∀ k text, env.entries.get? k = some text ↔ Says map k text := by
  cases hd : Json.asDict? some j with
  | none =>
      rw [ofJson, hd] at h
      cases h
  | some d =>
      obtain ⟨hread, -⟩ := (ofJson_of_asDict? hd).1 h
      have hfits := (exists_readMembers_iff (fun _ => hj.of_mem_dict hd) .empty).1 ⟨table, hread⟩
      obtain ⟨env, henv⟩ :=
        (exists_environment_iff hj hd hread hfits name).2 ⟨hname, map, hmap⟩
      obtain ⟨-, -, map', hmap', htexts⟩ := (environments_of_readMembers hd hread name env).1 henv
      rw [← Json.get?_of_asDict? hd] at hmap hmap'
      rw [hmap] at hmap'
      obtain rfl := Option.some.inj hmap'
      exact ⟨env, henv, htexts⟩

theorem exists_ofJson {members : List (List Char × Json)} (hj : (Json.object members).HasValue)
    (h : Acceptable (.object members)) : ∃ table, ofJson (.object members) = .ok table := by
  obtain ⟨d, hd⟩ := Option.isSome_iff_exists.1 (hj.isSome_asDict?.2 ⟨members, rfl⟩)
  have hfits := (forall_fits_iff hd).2 h.fits
  obtain ⟨table, hread⟩ := (exists_readMembers_iff (fun _ => hj.of_mem_dict hd) .empty).2 hfits
  refine ⟨table, (ofJson_of_asDict? hd).2 ⟨hread, fun name hname => ?_⟩⟩
  exact (exists_environment_iff hj hd hread hfits name).2
    (h.selected name ((selected_of_readMembers hd hread name).1 hname))

/-- An object is read exactly if it is an acceptable configuration, and then as the table that it
describes. -/
theorem ofJson_eq_ok_iff {members : List (List Char × Json)}
    (hj : (Json.object members).HasValue) : ofJson (.object members) = .ok table ↔
      Acceptable (.object members) ∧ Describes (.object members) table := by
  refine ⟨describes_of_ofJson hj, ?_⟩
  rintro ⟨hacceptable, hdescribes⟩
  obtain ⟨other, hother⟩ := exists_ofJson hj hacceptable
  rw [hdescribes.unique (describes_of_ofJson hj hother).2]
  exact hother

end Stencil.Configuration
