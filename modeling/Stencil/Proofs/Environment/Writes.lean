import Mathlib.Data.List.Induction
import Stencil.Environment.Scope

/-!
# Tables and their writes

A table is built from the empty one by adding environments and setting shared entries. Under a
name it has the environment that was added last (`environments_run`), and under a shared key what
was left there last, by setting the key or by replacing all shared entries (`shared_run`). What is
seen from an environment, and whether it carries a remark, follows from these two
(`seen_from_writes`).
-/

namespace Stencil.EnvironmentTable

/-! ## Writes -/

/-- A write to a table. -/
inductive Write where
  | add (env : Environment)
  | setShared (key value : String)
  deriving DecidableEq

/-- A table after a write. -/
def Write.apply (table : EnvironmentTable) : Write → EnvironmentTable
  | .add env => table.add env
  | .setShared key value => table.setShared key value

/-- The environment that a write puts under a name. -/
def Write.environment? (name : String) : Write → Option Environment
  | .add env => if env.name = name then some env else none
  | .setShared _ _ => none

/-- What a write leaves under a shared key, if it writes there: setting a key writes to that key
only, an environment that becomes the shared entries writes to all keys. -/
def Write.shared? (key : String) : Write → Option (Option String)
  | .add env => if env.name = sharedName then some (env.entries.get? key) else none
  | .setShared k value => if k = key then some (some value) else none

/-- The table of some writes. -/
def run (writes : List Write) : EnvironmentTable := writes.foldl Write.apply .empty

/-- The environment that was added last under a name. -/
def added? (writes : List Write) (name : String) : Option Environment :=
  writes.reverse.findSome? (Write.environment? name)

/-- What was left last under a shared key. -/
def left? (writes : List Write) (key : String) : Option String :=
  (writes.reverse.findSome? (Write.shared? key)).join

/-- The value of a key as seen from an environment: that of the environment that was added last
under the name, if it has one, and otherwise what was left last under the shared key. -/
def seen? (writes : List Write) (name key : String) : Option String :=
  if name = "" ∨ name = sharedName then left? writes key
  else ((added? writes name).bind fun env => env.entries.get? key).or (left? writes key)

/-- A name under which an environment is selected that was never added. -/
def Unknown (writes : List Write) (name : String) : Prop :=
  name ≠ "" ∧ name ≠ sharedName ∧ ∀ env, .add env ∈ writes → env.name ≠ name

theorem added?_eq_none_iff {writes : List Write} {name : String} :
    added? writes name = none ↔ ∀ env, .add env ∈ writes → env.name ≠ name := by
  rw [added?, List.findSome?_eq_none_iff]
  constructor
  · intro h env hmem heq
    have hnone := h (.add env) (List.mem_reverse.2 hmem)
    rw [Write.environment?, if_pos heq] at hnone
    cases hnone
  · intro h w hw
    cases w with
    | add env => exact if_neg (h env (List.mem_reverse.1 hw))
    | setShared key value => rfl

instance (writes : List Write) (name : String) : Decidable (Unknown writes name) :=
  decidable_of_iff (name ≠ "" ∧ name ≠ sharedName ∧ added? writes name = none) <| by
    rw [Unknown, added?_eq_none_iff]

/-! ## One write -/

theorem Write.name_of_environment? {w : Write} {name : String} {env : Environment}
    (h : w.environment? name = some env) : env.name = name := by
  cases w with
  | add added =>
      rw [Write.environment?] at h
      split at h
      next hname =>
        obtain ⟨rfl⟩ := h
        exact hname
      next => cases h
  | setShared key value => cases h

theorem add_of_shared (table : EnvironmentTable) {env : Environment} (h : env.name = sharedName) :
    table.add env = { table with shared := env.entries } := if_pos h

theorem add_of_ne_shared (table : EnvironmentTable) {env : Environment}
    (h : env.name ≠ sharedName) :
    table.add env = { table with environments := table.environments.insert env.name env } :=
  if_neg h

/-- Nothing is ever put under `$shared`. -/
theorem Write.environments_apply_shared (table : EnvironmentTable) (w : Write) :
    (w.apply table).environments.get? sharedName = table.environments.get? sharedName := by
  cases w with
  | setShared key value => rfl
  | add env =>
      show (table.add env).environments.get? sharedName = _
      by_cases hshared : env.name = sharedName
      · rw [add_of_shared table hshared]
      · rw [add_of_ne_shared table hshared, Dict.get?_insert, if_neg (Ne.symm hshared)]

/-- A write changes the environment under the name that it is for. -/
theorem Write.environments_apply (table : EnvironmentTable) (w : Write) {name : String}
    (hname : name ≠ sharedName) : (w.apply table).environments.get? name =
      (w.environment? name).or (table.environments.get? name) := by
  cases w with
  | setShared key value => rfl
  | add env =>
      show (table.add env).environments.get? name = _
      by_cases hshared : env.name = sharedName
      -- the shared entries stand under no name
      · have hne : env.name ≠ name := by
          intro heq
          exact hname (heq.symm.trans hshared)
        rw [add_of_shared table hshared]
        simp [environment?, hne]
      · rw [add_of_ne_shared table hshared, Dict.get?_insert]
        by_cases hne : name = env.name
        · simp [environment?, hne]
        · simp [environment?, hne, Ne.symm hne]

/-- A write changes the shared keys that it writes to. -/
theorem Write.shared_apply (table : EnvironmentTable) (w : Write) (key : String) :
    (w.apply table).shared.get? key = (w.shared? key).getD (table.shared.get? key) := by
  cases w with
  | add env =>
      show (table.add env).shared.get? key = _
      by_cases hshared : env.name = sharedName
      · rw [add_of_shared table hshared]
        simp [shared?, hshared]
      · rw [add_of_ne_shared table hshared]
        simp [shared?, hshared]
  | setShared k value =>
      show (table.shared.insert k value).get? key = _
      rw [Dict.get?_insert]
      by_cases hk : key = k
      · simp [shared?, hk]
      · simp [shared?, hk, Ne.symm hk]

/-! ## All writes -/

theorem run_append (writes : List Write) (w : Write) :
    run (writes ++ [w]) = w.apply (run writes) := by
  simp [run]

theorem name_of_added? {writes : List Write} {name : String} {env : Environment}
    (h : added? writes name = some env) : env.name = name := by
  obtain ⟨w, -, hw⟩ := List.exists_of_findSome?_eq_some h
  exact Write.name_of_environment? hw

/-- Under every name but `$shared` stands the environment that was added last. -/
theorem environments_run (writes : List Write) {name : String} (hname : name ≠ sharedName) :
    (run writes).environments.get? name = added? writes name := by
  induction writes using List.reverseRecOn with
  | nil => rfl
  | append_singleton writes w ih =>
      rw [run_append, Write.environments_apply _ w hname, ih]
      simp [added?, List.findSome?_cons]
      cases w.environment? name <;> rfl

theorem environments_run_shared (writes : List Write) :
    (run writes).environments.get? sharedName = none := by
  induction writes using List.reverseRecOn with
  | nil => rfl
  | append_singleton writes w ih => rw [run_append, Write.environments_apply_shared, ih]

/-- Under every shared key stands what was left there last. -/
theorem shared_run (writes : List Write) (key : String) :
    (run writes).shared.get? key = left? writes key := by
  induction writes using List.reverseRecOn with
  | nil => rfl
  | append_singleton writes w ih =>
      rw [run_append, Write.shared_apply, ih]
      simp [left?, List.findSome?_cons]
      cases w.shared? key <;> rfl

/-- What stands under a key is the environment of that name that was added last; `$shared` is no
key. -/
theorem stored_run_iff {writes : List Write} {key : String} {env : Environment} :
    (run writes).environments.get? key = some env ↔
      env.name = key ∧ key ≠ sharedName ∧ added? writes key = some env := by
  by_cases hkey : key = sharedName
  · subst hkey
    simp [environments_run_shared]
  · rw [environments_run writes hkey]
    constructor
    · intro h
      exact ⟨name_of_added? h, hkey, h⟩
    · rintro ⟨-, -, h⟩
      exact h

/-! ## What is seen -/

/-- The remark on a value that is seen from an environment that was never added. -/
theorem remark_run (writes : List Write) (name : String) :
    (EnvironmentScope.mk (run writes) name).remark =
      if Unknown writes name then
        some s!"environment '{name}' is not defined; value taken from $shared"
      else none := by
  have hunknown : (EnvironmentScope.mk (run writes) name).isUnknown = true ↔
      Unknown writes name := by
    by_cases hname : name = sharedName
    · simp [EnvironmentScope.isUnknown, Unknown, has, hname]
    · simp [EnvironmentScope.isUnknown, Unknown, has, hname, Dict.contains,
        environments_run writes hname, added?_eq_none_iff]
  rw [EnvironmentScope.remark]
  simp only [hunknown]

/-- An entry of an environment itself stands in the one that was added last under its name. -/
theorem own_run (writes : List Write) {name : String} (hname : name ≠ sharedName) (key : String) :
    (run writes).own? name key = (added? writes name).bind fun env => env.entries.get? key := by
  show ((run writes).environments.get? name).bind (fun env => env.entries.get? key) = _
  rw [environments_run writes hname]

theorem own_run_shared (writes : List Write) (key : String) :
    (run writes).own? sharedName key = none := by
  show ((run writes).environments.get? sharedName).bind (fun env => env.entries.get? key) = _
  rw [environments_run_shared]
  rfl

theorem get?_run (writes : List Write) (name key : String) :
    (run writes).get? name key = seen? writes name key := by
  rw [EnvironmentTable.get?, seen?, shared?, shared_run]
  by_cases hempty : name = ""
  · rw [if_pos hempty, if_pos (.inl hempty)]
  · rw [if_neg hempty]
    by_cases hshared : name = sharedName
    · rw [if_pos (.inr hshared), hshared, own_run_shared, Option.none_or]
    · rw [if_neg (not_or.2 ⟨hempty, hshared⟩), own_run writes hshared]

theorem seen_of_unknown {writes : List Write} {name : String} (h : Unknown writes name)
    (key : String) : seen? writes name key = left? writes key := by
  obtain ⟨hempty, hshared, hadded⟩ := h
  rw [seen?, if_neg (not_or.2 ⟨hempty, hshared⟩), added?_eq_none_iff.2 hadded]
  rfl

theorem get_run_eq_ok_iff (writes : List Write) (name key : String) (v : Variable) :
    (EnvironmentScope.mk (run writes) name).get key = .ok v ↔
      seen? writes name key = some v.value ∧ v.name = key ∧ v.kind = .environment ∧
        v.warning = if Unknown writes name then
          some s!"environment '{name}' is not defined; value taken from $shared" else none := by
  have hlookup : (EnvironmentScope.mk (run writes) name).lookup? key = seen? writes name key :=
    get?_run writes name key
  rw [EnvironmentScope.get, hlookup, remark_run]
  obtain ⟨n, text, kind, warning⟩ := v
  cases seen? writes name key with
  | none => simp
  | some value =>
      simp only [Except.ok.injEq, Variable.mk.injEq, Option.some.injEq]
      constructor
      · rintro ⟨rfl, rfl, rfl, rfl⟩
        exact ⟨rfl, rfl, rfl, rfl⟩
      · rintro ⟨rfl, rfl, rfl, rfl⟩
        exact ⟨rfl, rfl, rfl, rfl⟩

/-- A table is the history of its writes. Every environment stands under its own name, which is
never `$shared`, and is the one that was added last; what is seen from an environment is its own
entry there, or else the shared one. All ways to look a key up agree, and a variable carries a
remark exactly if an environment is selected that was never added; its value is then the shared
one. -/
theorem seen_from_writes (writes : List Write) :
    (∀ key env, (run writes).environments.get? key = some env ↔
      env.name = key ∧ key ≠ sharedName ∧ added? writes key = some env) ∧
    ∀ name key,
      let scope : EnvironmentScope := ⟨run writes, name⟩
      (run writes).get? name key = seen? writes name key ∧
      scope.lookup? key = seen? writes name key ∧
      EnvironmentScope.resolve? key (run writes) name = seen? writes name key ∧
      scope.has key = (seen? writes name key).isSome ∧
      (scope.get key = .error (.undefined key) ↔ seen? writes name key = none) ∧
      (∀ v, scope.get key = .ok v ↔
        seen? writes name key = some v.value ∧ v.name = key ∧ v.kind = .environment ∧
          v.warning = if Unknown writes name then
            some s!"environment '{name}' is not defined; value taken from $shared" else none) ∧
      (Unknown writes name → seen? writes name key = left? writes key) := by
  refine ⟨fun key env => stored_run_iff, fun name key => ?_⟩
  have hget : (run writes).get? name key = seen? writes name key := get?_run writes name key
  refine ⟨hget, hget, hget, congrArg Option.isSome hget, ?_, ?_, fun h => seen_of_unknown h key⟩
  · rw [EnvironmentScope.get, show EnvironmentScope.lookup? ⟨run writes, name⟩ key = _ from hget]
    cases seen? writes name key <;> simp
  · exact get_run_eq_ok_iff writes name key

/-- Entries of an environment that was replaced are gone, and so are shared entries behind an
environment named `$shared`; an environment that was never added sees the shared entries. -/
theorem seen_from_writes_replaced :
    let writes : List Write := [.setShared "a" "1", .setShared "b" "2",
      .add ⟨"dev", Dict.empty.insert "c" "3"⟩, .add ⟨"dev", Dict.empty.insert "a" "4"⟩,
      .add ⟨"$shared", Dict.empty.insert "c" "5"⟩]
    (run writes).get? "dev" "a" = some "4" ∧ (run writes).get? "dev" "b" = none ∧
      (run writes).get? "dev" "c" = some "5" ∧ (run writes).get? "prod" "a" = none ∧
      ∃ v, (EnvironmentScope.mk (run writes) "prod").get "c" = .ok v ∧ v.value = "5" ∧
        v.warning.isSome := by
  intro writes
  obtain ⟨-, hseen⟩ := seen_from_writes writes
  have hdev : ∀ key, (run writes).get? "dev" key = seen? writes "dev" key :=
    fun key => (hseen "dev" key).1
  obtain ⟨hprod, -⟩ := hseen "prod" "a"
  obtain ⟨-, -, -, -, -, hok, -⟩ := hseen "prod" "c"
  refine ⟨(hdev "a").trans (by decide), (hdev "b").trans (by decide), (hdev "c").trans (by decide),
    hprod.trans (by decide), ⟨"c", "5", .environment, _⟩, (hok _).2 ⟨by decide, rfl, rfl, rfl⟩,
    rfl, ?_⟩
  decide

end Stencil.EnvironmentTable
