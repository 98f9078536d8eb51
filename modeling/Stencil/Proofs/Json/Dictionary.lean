import Stencil.Environment.Codec
import Stencil.Proofs.Json.Writer

/-!
# Dictionaries as objects

An object is a document of a dictionary if its members are the entries in some order
(`Dict.Document`); the one that is written has them in the order of their keys. As each key stands
once, reading any of them gives the dictionary back, provided that its values are read back
(`asDict?_of_document`).
-/

namespace Stencil

open Json

variable {α : Type} {write : α → Json} {read : Json → Option α} {R : α → Json → Prop}

/-- The members of an object are the entries of a dictionary, in any order, with documents of their
values as `R` has them. -/
def Dict.Document (R : α → Json → Prop) (d : Dict α) (j : Json) : Prop :=
  ∃ rows : List (String × α × Json), (rows.map fun row => (row.1, row.2.1)).Perm d.toList ∧
    (∀ row ∈ rows, R row.2.1 row.2.2) ∧ j = .object (rows.map fun row => member row.1 row.2.2)

theorem Dict.document_toJson (d : Dict α) (h : ∀ e ∈ d.toList, R e.2 (write e.2)) :
    d.Document R (d.toJson write) := by
  refine ⟨d.toList.map fun e => (e.1, e.2, write e.2), ?_, ?_, ?_⟩
  · rw [List.map_map]
    exact List.Perm.of_eq (List.map_id _)
  · intro row hrow
    obtain ⟨e, he, rfl⟩ := List.mem_map.1 hrow
    exact h e he
  · rw [List.map_map]
    rfl

theorem Dict.Document.wellFormed {d : Dict α} {j : Json} (h : d.Document R j)
    (hvalues : ∀ a v, R a v → v.WellFormed) : j.WellFormed := by
  obtain ⟨rows, -, hrows, rfl⟩ := h
  refine .object (fun m hm => ?_) fun m hm => ?_
  · obtain ⟨row, -, rfl⟩ := List.mem_map.1 hm
    exact Quoted.isStringLiteral_quote row.1.toList
  · obtain ⟨row, hrow, rfl⟩ := List.mem_map.1 hm
    exact hvalues _ _ (hrows row hrow)

theorem Dict.wellFormed_toJson (d : Dict α) (h : ∀ e ∈ d.toList, (write e.2).WellFormed) :
    (d.toJson write).WellFormed := by
  have hdocument : d.Document (fun _ v => v.WellFormed) (d.toJson write) := d.document_toJson h
  exact hdocument.wellFormed fun _ _ hv => hv

theorem mapM_map_eq_some {β γ δ : Type} {f : γ → Option δ} {g : β → γ} {k : β → δ} {l : List β}
    (h : ∀ b ∈ l, f (g b) = some (k b)) : (l.map g).mapM f = some (l.map k) := by
  induction l with
  | nil => rfl
  | cons b l ih =>
    obtain ⟨hb, hl⟩ := List.forall_mem_cons.1 h
    rw [List.map_cons, List.mapM_cons, hb, ih hl]
    rfl

/-- A dictionary is read back from its entries in any order. -/
theorem asDict?_of_document {d : Dict α} {j : Json} (h : d.Document R j)
    (hread : ∀ a v, R a v → read v = some a) : asDict? read j = some d := by
  obtain ⟨rows, hperm, hrows, rfl⟩ := h
  have hmembers : asMembers? (.object (rows.map fun row => member row.1 row.2.2)) =
      some (rows.map fun row => (row.1, row.2.2)) := by
    refine mapM_map_eq_some fun row _ => ?_
    simp [member]
  refine Option.bind_eq_some_iff.2 ⟨_, hmembers, Option.bind_eq_some_iff.2
    ⟨rows.map fun row => (row.1, row.2.1), mapM_map_eq_some fun row hrow => ?_, ?_⟩⟩
  · simp [hread _ _ (hrows row hrow)]
  · rw [← Dict.ofList_eq_of_perm d.nodup_keys hperm.symm, d.ofList_toList]
    rfl

theorem asDict?_toJson (d : Dict α) (h : ∀ e ∈ d.toList, read (write e.2) = some e.2) :
    asDict? read (d.toJson write) = some d := by
  have hdocument : d.Document (fun a v => read v = some a) (d.toJson write) := d.document_toJson h
  exact asDict?_of_document hdocument fun _ _ hv => hv

end Stencil
