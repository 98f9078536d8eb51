import Stencil.Json.Record
import Stencil.Proofs.Json.Dictionary
import Stencil.Scalar

/-!
# The members of objects

What an object holds under a key is said by `Json.Holds` on its members as they stand, and read
from the dictionary of the object (`get?_of_asDict?`). A document that has a value is an object
exactly if it has a dictionary, and a scalar exactly if it has one (`HasValue.isSome_asDict?`,
`HasValue.isSome_ofJson?`).
-/

namespace Stencil.Json

/-- An object holds a value under a key if the last of its members with the key has the value. -/
def Holds (j : Json) (key : String) (value : Json) : Prop :=
  ∃ before literal after, j = .object (before ++ (literal, value) :: after) ∧
    text? literal = some key ∧ ∀ m ∈ after, text? m.1 ≠ some key

/-- A document that is neither an array nor an object. -/
inductive IsScalar : Json → Prop
  | null : IsScalar .null
  | bool (b : Bool) : IsScalar (.bool b)
  | number (literal : List Char) : IsScalar (.number literal)
  | string (literal : List Char) : IsScalar (.string literal)

/-- A document that has a value at some depth. -/
def HasValue (j : Json) : Prop := ∃ depth, j.admissibleWithin depth = true

/-! ## Dictionaries -/

/-- A member with the text of its key. -/
def entry (m : List Char × Json) : String × Json := ((text? m.1).getD "", m.2)

theorem asMembers?_object (members : List (List Char × Json)) : asMembers? (.object members) =
    if members.all (fun m => (text? m.1).isSome) then some (members.map entry) else none := by
  induction members with
  | nil => rfl
  | cons m members ih =>
      obtain ⟨literal, value⟩ := m
      rw [asMembers?] at ih ⊢
      rw [List.mapM_cons, ih, List.all_cons, List.map_cons, entry]
      cases htext : text? literal with
      | none => simp [htext]
      | some key => cases hall : members.all fun m => (text? m.1).isSome <;> simp [htext]

theorem asDict?_object (members : List (List Char × Json)) : asDict? some (.object members) =
    if members.all (fun m => (text? m.1).isSome) then some (Dict.ofList (members.map entry))
    else none := by
  rw [asDict?, asMembers?_object]
  split
  · have hvalues : ((members.map entry).map id).mapM (fun e => some (e.1, e.2)) =
        some ((members.map entry).map id) := mapM_map_eq_some fun _ _ => rfl
    rw [List.map_id] at hvalues
    exact Option.bind_eq_some_iff.2 ⟨_, rfl, Option.bind_eq_some_iff.2 ⟨_, hvalues, rfl⟩⟩
  · rfl

theorem asDict?_eq_none_of_not_object {j : Json} (h : ∀ members, j ≠ .object members) :
    asDict? some j = none := by
  cases j with
  | object members => exact absurd rfl (h members)
  | _ => rfl

theorem object_of_asDict? {j : Json} {d : Dict Json} (h : asDict? some j = some d) :
    ∃ members, j = .object members ∧ (∀ m ∈ members, (text? m.1).isSome) ∧
      d = Dict.ofList (members.map entry) := by
  cases j with
  | object members =>
      rw [asDict?_object] at h
      split at h
      next hall => exact ⟨members, rfl, List.all_eq_true.1 hall, (Option.some.inj h).symm⟩
      next => cases h
  | _ => cases h

/-- The dictionary of an object has what the object holds. -/
theorem get?_of_asDict? {j : Json} {d : Dict Json} (h : asDict? some j = some d) {key : String}
    {value : Json} : d.get? key = some value ↔ j.Holds key value := by
  obtain ⟨members, rfl, htexts, rfl⟩ := object_of_asDict? h
  have hentry : ∀ m ∈ members, text? m.1 = some (entry m).1 := by
    intro m hm
    obtain ⟨text, htext⟩ := Option.isSome_iff_exists.1 (htexts m hm)
    rw [entry, htext]
    rfl
  rw [Dict.get?_ofList_eq_some_iff]
  constructor
  · rintro ⟨before, after, hmap, hafter⟩
    obtain ⟨before, others, rfl, rfl, hothers⟩ := List.map_eq_append_iff.1 hmap
    obtain ⟨m, after, rfl, hm, rfl⟩ := List.map_eq_cons_iff.1 hothers
    obtain ⟨rfl, rfl⟩ := Prod.mk.inj hm
    refine ⟨before, m.1, after, rfl, hentry m (by simp), fun m' hm' => ?_⟩
    rw [hentry m' (by simp [hm'])]
    exact fun heq => hafter (entry m') (List.mem_map_of_mem hm') (Option.some.inj heq)
  · rintro ⟨before, literal, after, hmembers, htext, hafter⟩
    obtain rfl := Json.object.inj hmembers
    refine ⟨before.map entry, after.map entry, by simp [entry, htext], fun e he => ?_⟩
    obtain ⟨m, hm, rfl⟩ := List.mem_map.1 he
    have hne := hafter m hm
    rw [hentry m (by simp [hm])] at hne
    exact fun heq => hne (congrArg some heq)

/-- The values of entries are read, their keys stay. -/
theorem map_fst_of_mapM {α : Type} {read : Json → Option α} {entries : List (String × Json)}
    {values : List (String × α)}
    (h : (entries.mapM fun e => do pure (e.1, ← read e.2)) = some values) :
    values.map (·.1) = entries.map (·.1) := by
  induction entries generalizing values with
  | nil =>
      cases h
      rfl
  | cons e entries ih =>
      rw [List.mapM_cons] at h
      obtain ⟨first, hfirst, h⟩ := Option.bind_eq_some_iff.1 h
      obtain ⟨rest, hrest, h⟩ := Option.bind_eq_some_iff.1 h
      obtain ⟨a, -, hfirst⟩ := Option.bind_eq_some_iff.1 hfirst
      cases h
      cases hfirst
      rw [List.map_cons, List.map_cons, ih hrest]

/-- An entry is read where it stands. -/
theorem exists_of_mapM_append {α : Type} {read : Json → Option α}
    {before after : List (String × Json)} {key : String} {value : Json}
    {values : List (String × α)}
    (h : ((before ++ (key, value) :: after).mapM fun e => do pure (e.1, ← read e.2)) =
      some values) : ∃ front a behind, values = front ++ (key, a) :: behind ∧
        read value = some a ∧ behind.map (·.1) = after.map (·.1) := by
  induction before generalizing values with
  | nil =>
      rw [List.nil_append, List.mapM_cons] at h
      obtain ⟨own, hown, h⟩ := Option.bind_eq_some_iff.1 h
      obtain ⟨behind, hbehind, h⟩ := Option.bind_eq_some_iff.1 h
      obtain ⟨a, ha, hown⟩ := Option.bind_eq_some_iff.1 hown
      cases h
      cases hown
      exact ⟨[], a, behind, rfl, ha, map_fst_of_mapM hbehind⟩
  | cons e before ih =>
      rw [List.cons_append, List.mapM_cons] at h
      obtain ⟨first, -, h⟩ := Option.bind_eq_some_iff.1 h
      obtain ⟨rest, hrest, h⟩ := Option.bind_eq_some_iff.1 h
      obtain ⟨front, a, behind, rfl, ha, hkeys⟩ := ih hrest
      cases h
      exact ⟨first :: front, a, behind, rfl, ha, hkeys⟩

/-- What an object holds under a key is read as the value of the key. -/
theorem exists_read_of_asDict? {α : Type} {read : Json → Option α} {j : Json} {d : Dict α}
    (h : asDict? read j = some d) {key : String} {value : Json} (hvalue : j.Holds key value) :
    ∃ a, read value = some a ∧ d.get? key = some a := by
  obtain ⟨before, literal, after, rfl, htext, hafter⟩ := hvalue
  obtain ⟨members, hmembers, h⟩ := Option.bind_eq_some_iff.1 h
  obtain ⟨values, hvalues, h⟩ := Option.bind_eq_some_iff.1 h
  cases h
  rw [asMembers?_object] at hmembers
  split at hmembers
  next hall =>
    have hsplit : (before ++ (literal, value) :: after).map entry =
        before.map entry ++ (key, value) :: after.map entry := by
      simp [entry, htext]
    rw [hsplit] at hmembers
    cases hmembers
    obtain ⟨front, a, behind, rfl, ha, hkeys⟩ := exists_of_mapM_append hvalues
    refine ⟨a, ha, Dict.get?_ofList_eq_some_iff.2 ⟨front, behind, rfl, fun e he => ?_⟩⟩
    have hmem : e.1 ∈ (after.map entry).map (·.1) := by
      rw [← hkeys]
      exact List.mem_map_of_mem he
    obtain ⟨e', he', heq⟩ := List.mem_map.1 hmem
    obtain ⟨m, hm, rfl⟩ := List.mem_map.1 he'
    obtain ⟨text, hmtext⟩ := Option.isSome_iff_exists.1
      (List.all_eq_true.1 hall m (by simp [hm]))
    rintro rfl
    refine hafter m hm ?_
    rw [← heq, entry, hmtext]
    rfl
  next => cases hmembers

/-! ## Documents that have a value -/

theorem HasValue.of_object {members : List (List Char × Json)}
    (h : (Json.object members).HasValue) :
    ∀ m ∈ members, (text? m.1).isSome ∧ m.2.HasValue := by
  obtain ⟨depth, hdepth⟩ := h
  intro m hm
  cases depth with
  | zero => cases hdepth
  | succ depth =>
      rw [admissibleWithin, List.all_eq_true] at hdepth
      obtain ⟨htext, hvalue⟩ := Bool.and_eq_true_iff.1 (hdepth m hm)
      exact ⟨htext, depth, hvalue⟩

theorem HasValue.of_holds {j value : Json} {key : String} (h : j.HasValue)
    (hvalue : j.Holds key value) : value.HasValue := by
  obtain ⟨before, literal, after, rfl, -, -⟩ := hvalue
  exact (h.of_object (literal, value) (by simp)).2

theorem HasValue.of_mem_dict {j : Json} {d : Dict Json} (h : j.HasValue)
    (hd : asDict? some j = some d) {e : String × Json} (he : e ∈ d.toList) : e.2.HasValue :=
  h.of_holds ((get?_of_asDict? hd).1 (Dict.get?_of_mem he))

theorem HasValue.isSome_asDict? {j : Json} (h : j.HasValue) :
    (asDict? some j).isSome ↔ ∃ members, j = .object members := by
  constructor
  · intro hsome
    obtain ⟨d, hd⟩ := Option.isSome_iff_exists.1 hsome
    obtain ⟨members, rfl, -, -⟩ := object_of_asDict? hd
    exact ⟨members, rfl⟩
  · rintro ⟨members, rfl⟩
    have htexts : members.all (fun m => (text? m.1).isSome) = true :=
      List.all_eq_true.2 fun m hm => (h.of_object m hm).1
    rw [asDict?_object, if_pos htexts]
    rfl

theorem HasValue.isSome_ofJson? {j : Json} (h : j.HasValue) :
    (Scalar.ofJson? j).isSome ↔ j.IsScalar := by
  constructor
  · intro hsome
    cases j with
    | null => exact .null
    | bool b => exact .bool b
    | number literal => exact .number literal
    | string literal => exact .string literal
    | array items => cases hsome
    | object members => cases hsome
  · obtain ⟨depth, hdepth⟩ := h
    intro hscalar
    cases hscalar with
    | null => rfl
    | bool b => rfl
    | number literal =>
        rw [Scalar.ofJson?, Option.isSome_map]
        cases depth <;> exact hdepth
    | string literal =>
        rw [Scalar.ofJson?, Option.isSome_map]
        cases depth <;> exact hdepth

end Stencil.Json
