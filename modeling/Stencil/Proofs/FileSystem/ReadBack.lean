import Stencil.FileSystem.Basic
import Stencil.Proofs.Except

/-!
# Files are read back

Writing a file replaces one node, which was no directory. So every directory on the way to it is
still there (`walk_set`), the path leads to the same place as before, and what is read there is
what was written (`readBytes_of_writeBytes`, `readText_of_provide`).
-/

namespace Stencil

namespace FileSystem

variable {fs fs' : FileSystem} {place p q : List String} {node : Node} {path name : String}
  {parts : List String} {content : ByteArray}

theorem enter_eq_ok : fs.enter p = .ok () ↔ fs.node? p = some .directory := by
  unfold enter
  split <;> simp [*]

/-- A directory stays where the node that is replaced is none. -/
theorem node?_set_of_directory (hplace : fs.node? place ≠ some .directory)
    (hp : fs.node? p = some .directory) : (fs.set place node).node? p = some .directory := by
  by_cases hroot : p = []
  · rw [hroot]
    rfl
  · have hne : place ≠ [] := by
      rintro rfl
      exact hplace rfl
    rw [node?_set fs place node hroot, if_neg]
    · exact hp
    · -- Places with one name between slashes have one node.
      intro heq
      have hsame : fs.node? place = fs.node? p := by
        simp only [node?, if_neg hne, if_neg hroot, heq]
      exact hplace (hsame.trans hp)

theorem walk_set (hplace : fs.node? place ≠ some .directory) (h : fs.walk p parts = .ok q) :
    (fs.set place node).walk p parts = .ok q := by
  induction parts generalizing p with
  | nil => exact h
  | cons part rest ih =>
    obtain ⟨⟨⟩, henter, h⟩ := exists_of_bind_eq_ok h
    obtain ⟨next, hfollow, h⟩ := exists_of_bind_eq_ok h
    have henter' : (fs.set place node).enter p = .ok () :=
      enter_eq_ok.2 (node?_set_of_directory hplace (enter_eq_ok.1 henter))
    rw [walk, henter', hfollow]
    exact ih h

/-- The last part of a path is followed from where the others lead to. -/
theorem walk_concat (hwalk : fs.walk p parts = .ok q) (henter : fs.enter q = .ok ())
    (hfollow : follow q name = .ok place) : fs.walk p (parts ++ [name]) = .ok place := by
  induction parts generalizing p with
  | nil =>
    cases hwalk
    rw [List.nil_append, walk, henter, hfollow]
    rfl
  | cons part rest ih =>
    obtain ⟨⟨⟩, hhere, hwalk⟩ := exists_of_bind_eq_ok hwalk
    obtain ⟨next, hnext, hwalk⟩ := exists_of_bind_eq_ok hwalk
    rw [List.cons_append, walk, hhere, hnext]
    exact ih hwalk

/-- Writing replaces the node that the path leads to, which is no directory. -/
theorem exists_of_writeBytes (h : fs.writeBytes path content = .ok fs') :
    ∃ parts place, route path = .ok parts ∧ fs.walk (fs.start path) parts = .ok place ∧
      fs.node? place ≠ some .directory ∧ fs' = fs.set place (.file content) := by
  obtain ⟨parts, hroute, h⟩ := exists_of_bind_eq_ok h
  obtain ⟨above, hwalk, h⟩ := exists_of_bind_eq_ok h
  obtain ⟨⟨⟩, henter, h⟩ := exists_of_bind_eq_ok h
  dsimp only at h
  split at h
  · cases h
  next hname =>
    obtain ⟨place, hfollow, h⟩ := exists_of_bind_eq_ok h
    have hne : parts ≠ [] := by
      rintro rfl
      exact hname (.inl rfl)
    have hparts : parts.dropLast ++ [parts.getLastD ""] = parts := by
      rw [List.getLastD_eq_getLast?, List.getLast?_eq_some_getLast hne]
      exact List.dropLast_concat_getLast hne
    refine ⟨parts, place, hroute, ?_, ?_⟩
    · rw [← hparts]
      exact walk_concat hwalk henter hfollow
    · split at h
      · cases h
      next hnode =>
        cases h
        exact ⟨hnode, rfl⟩

theorem readBytes_of_writeBytes (h : fs.writeBytes path content = .ok fs') :
    fs'.readBytes path = .ok content := by
  obtain ⟨parts, place, hroute, hwalk, hplace, rfl⟩ := exists_of_writeBytes h
  have hne : place ≠ [] := by
    rintro rfl
    exact hplace rfl
  have hlocate : (fs.set place (.file content)).locate path = .ok place := by
    rw [locate, hroute]
    exact walk_set hplace hwalk
  have hnode : (fs.set place (.file content)).node? place = some (.file content) := by
    rw [node?_set fs place _ hne, if_pos rfl]
  rw [readBytes, hlocate, ok_bind, hnode]

/-- A text that was written is read back. -/
theorem readText_of_provide {text : String} (h : fs.provide path text.toUTF8 = .ok fs') :
    fs'.readText path = .ok text := by
  obtain ⟨fs₁, -, h⟩ := exists_of_bind_eq_ok h
  have hdecode : String.fromUTF8? text.toUTF8 = some text := by
    unfold String.fromUTF8?
    rw [String.toUTF8_eq_toByteArray, dif_pos text.isValidUTF8]
    rfl
  rw [readText, readBytes_of_writeBytes h, ok_bind, hdecode]

/-- Whether a file can be written does not depend on what is written. -/
theorem exists_provide (h : fs.provide path content = .ok fs') (other : ByteArray) :
    ∃ fs'', fs.provide path other = .ok fs'' := by
  obtain ⟨made, hmade, h⟩ := exists_of_bind_eq_ok h
  obtain ⟨parts, hroute, h⟩ := exists_of_bind_eq_ok h
  obtain ⟨above, hwalk, h⟩ := exists_of_bind_eq_ok h
  obtain ⟨⟨⟩, henter, h⟩ := exists_of_bind_eq_ok h
  rw [provide, hmade, ok_bind, writeBytes, hroute, ok_bind, hwalk, ok_bind, henter, ok_bind]
  dsimp only at h ⊢
  split at h
  · cases h
  next hname =>
    obtain ⟨place, hfollow, h⟩ := exists_of_bind_eq_ok h
    rw [if_neg hname, hfollow, ok_bind]
    split at h
    · cases h
    next hnode => exact ⟨_, rfl⟩

end FileSystem

end Stencil
