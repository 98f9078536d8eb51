import Mathlib.Data.List.Forall2
import Stencil.Proofs.Json.Members

/-!
# The order of members

Two documents are `Reordered` if they differ in the order of members only, at any depth, where the
members that change places have different keys. Such documents have the same scalars and have
values at the same depths, and their dictionaries list the same keys with reordered values
(`Reordered.asDict?`).
-/

namespace Stencil

/-! ## Dictionaries with related values -/

section

variable {α : Type} {R : α → α → Prop}

/-- Two lists of entries have the same keys, with related values. -/
abbrev SameKeys (R : α → α → Prop) : List (String × α) → List (String × α) → Prop :=
  List.Forall₂ fun a b => a.1 = b.1 ∧ R a.2 b.2

theorem SameKeys.refl (hrefl : ∀ v, R v v) (l : List (String × α)) : SameKeys R l l :=
  List.forall₂_same.2 fun e _ => ⟨rfl, hrefl e.2⟩

theorem SameKeys.trans (htrans : ∀ u v w, R u v → R v w → R u w) {a b c : List (String × α)}
    (hab : SameKeys R a b) (hbc : SameKeys R b c) : SameKeys R a c := by
  induction hab generalizing c with
  | nil => exact hbc
  | cons hef _ ih =>
      cases hbc with
      | cons hfg hbc => exact .cons ⟨hef.1.trans hfg.1, htrans _ _ _ hef.2 hfg.2⟩ (ih hbc)

theorem SameKeys.put {key : String} {v w : α} (hvw : R v w) {a b : List (String × α)}
    (h : SameKeys R a b) : SameKeys R (Entries.put key v a) (Entries.put key w b) := by
  induction h with
  | nil => exact .cons ⟨rfl, hvw⟩ .nil
  | @cons e f a b hef hab ih =>
      obtain ⟨k, v'⟩ := e
      obtain ⟨k', w'⟩ := f
      obtain ⟨rfl, hvalues⟩ := hef
      unfold Entries.put
      split
      · exact .cons ⟨rfl, hvw⟩ (.cons ⟨rfl, hvalues⟩ hab)
      · split
        · exact .cons ⟨rfl, hvw⟩ hab
        · exact .cons ⟨rfl, hvalues⟩ ih

theorem SameKeys.insertAll {a b : List (String × α)} (h : SameKeys R a b) {d d' : Dict α}
    (hd : SameKeys R d.toList d'.toList) :
    SameKeys R (d.insertAll a).toList (d'.insertAll b).toList := by
  induction h generalizing d d' with
  | nil => exact hd
  | @cons e f a b hef hab ih =>
      obtain ⟨k, v⟩ := e
      obtain ⟨k', w⟩ := f
      obtain ⟨rfl, hvalues⟩ := hef
      exact ih (hd.put hvalues)

theorem SameKeys.ofList {a b : List (String × α)} (h : SameKeys R a b) :
    SameKeys R (Dict.ofList a).toList (Dict.ofList b).toList :=
  h.insertAll .nil

end

/-! ## Reordered documents -/

namespace Json

/-- Two documents that differ in the order of the members of their objects only. -/
inductive Reordered : Json → Json → Prop
  | refl (j : Json) : Reordered j j
  | trans {j k l : Json} : Reordered j k → Reordered k l → Reordered j l
  /-- The members of an object change places, and no two of them have the same key. -/
  | members {members members' : List (List Char × Json)} (perm : members.Perm members')
      (distinct : (members.filterMap fun m => text? m.1).Nodup) :
      Reordered (.object members) (.object members')
  /-- The members of the value of a member change places. -/
  | value {value value' : Json} (before after : List (List Char × Json)) (key : List Char) :
      Reordered value value' →
      Reordered (.object (before ++ (key, value) :: after))
        (.object (before ++ (key, value') :: after))
  /-- The members of an item of an array change places. -/
  | item {item item' : Json} (before after : List Json) :
      Reordered item item' →
      Reordered (.array (before ++ item :: after)) (.array (before ++ item' :: after))

/-- What is the same for all objects and the same for all arrays is not changed. -/
theorem Reordered.congr {α : Sort*} {f : Json → α}
    (hobject : ∀ members members', f (.object members) = f (.object members'))
    (harray : ∀ items items', f (.array items) = f (.array items')) {j j' : Json}
    (h : Reordered j j') : f j = f j' := by
  induction h with
  | refl j => rfl
  | trans _ _ ihj ihk => exact ihj.trans ihk
  | members _ _ => exact hobject _ _
  | value _ _ _ _ _ => exact hobject _ _
  | item _ _ _ _ => exact harray _ _

theorem Reordered.ofJson? {j j' : Json} (h : Reordered j j') :
    Scalar.ofJson? j = Scalar.ofJson? j' :=
  h.congr (fun _ _ => rfl) fun _ _ => rfl

theorem Reordered.asText? {j j' : Json} (h : Reordered j j') : asText? j = asText? j' :=
  h.congr (fun _ _ => rfl) fun _ _ => rfl

theorem Reordered.admissibleWithin {j j' : Json} (h : Reordered j j') (depth : Nat) :
    j.admissibleWithin depth = j'.admissibleWithin depth := by
  induction h generalizing depth with
  | refl j => rfl
  | trans _ _ ihj ihk => exact (ihj depth).trans (ihk depth)
  | members perm _ =>
      cases depth with
      | zero => rfl
      | succ depth => exact perm.all_eq
  | value before after key _ ih =>
      cases depth with
      | zero => rfl
      | succ depth =>
          simp only [Json.admissibleWithin, List.all_append, List.all_cons, ih depth]
  | item before after _ ih =>
      cases depth with
      | zero => rfl
      | succ depth =>
          simp only [Json.admissibleWithin, List.all_append, List.all_cons, ih depth]

theorem asDict?_perm {members members' : List (List Char × Json)} (perm : members.Perm members')
    (distinct : (members.filterMap fun m => text? m.1).Nodup) :
    asDict? some (.object members) = asDict? some (.object members') := by
  rw [asDict?_object, asDict?_object, perm.all_eq]
  split
  next hall =>
    have hkeys : (members.map entry).map (·.1) = members.filterMap fun m => text? m.1 := by
      rw [List.map_map]
      refine (List.filterMap_eq_map_iff_forall_eq_some.2 fun m hm => ?_).symm
      rw [← perm.all_eq] at hall
      obtain ⟨text, htext⟩ := Option.isSome_iff_exists.1 (List.all_eq_true.1 hall m hm)
      rw [htext]
      simp [entry, htext]
    rw [Dict.ofList_eq_of_perm (hkeys ▸ distinct) (perm.map entry)]
  next => rfl

/-- The dictionaries of reordered objects list the same keys, with reordered values. -/
theorem Reordered.asDict? {j j' : Json} (h : Reordered j j') :
    Option.Rel (fun d d' => SameKeys Reordered d.toList d'.toList) (asDict? some j)
      (asDict? some j') := by
  have hrefl : ∀ d? : Option (Dict Json),
      Option.Rel (fun d d' => SameKeys Reordered d.toList d'.toList) d? d?
    | none => .none
    | some d => .some (SameKeys.refl .refl d.toList)
  induction h with
  | refl j => exact hrefl _
  | @trans j k l _ _ ihj ihk =>
      generalize Json.asDict? some j = dj at *
      generalize Json.asDict? some k = dk at *
      generalize Json.asDict? some l = dl at *
      cases ihj with
      | none => exact ihk
      | some hjk =>
          cases ihk with
          | some hkl => exact .some (SameKeys.trans (fun _ _ _ => .trans) hjk hkl)
  | members perm distinct =>
      rw [asDict?_perm perm distinct]
      exact hrefl _
  | value before after key h _ =>
      rw [asDict?_object, asDict?_object, List.all_append, List.all_append, List.all_cons,
        List.all_cons]
      split
      · refine .some (SameKeys.ofList ?_)
        rw [List.map_append, List.map_append]
        exact List.rel_append (SameKeys.refl .refl _) (.cons ⟨rfl, h⟩ (SameKeys.refl .refl _))
      · exact .none
  | item _ _ _ _ => exact .none

end Json

end Stencil
