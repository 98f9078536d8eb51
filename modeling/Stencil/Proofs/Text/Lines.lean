import Stencil.Text.Lines

/-!
# The lines of a text

What a line of a text is, with the line feed that ends it, is said by `IsLine` without cutting the
text. The lines that `splitLines` gives are the lines in this sense, in order (`isLine_iff`), and
where a line ends a text can be cut before it is cut into lines (`Broken.splitLines_append`).
-/

namespace Stencil.Text

/-- A text is empty or ends with a line feed. -/
def Broken (cs : List Char) : Prop := cs = [] ∨ ∃ body, cs = body ++ ['\n']

/-- What stands between two parts of a text is a line: it begins with the text or behind a line
feed, and ends with its only line feed or, not being empty, with the text. -/
structure IsLine (front line back : List Char) : Prop where
  begins : Broken front
  stands : ∃ body, '\n' ∉ body ∧ (line = body ++ ['\n'] ∨ line = body ∧ body ≠ [] ∧ back = [])

theorem Broken.append {a b : List Char} (ha : Broken a) (hb : Broken b) : Broken (a ++ b) := by
  rcases hb with rfl | ⟨body, rfl⟩
  · rwa [List.append_nil]
  · exact .inr ⟨a ++ body, (List.append_assoc _ _ _).symm⟩

/-- What follows a line feed ends as the whole does. -/
theorem Broken.behind {body rest : List Char} (h : Broken (body ++ '\n' :: rest)) :
    Broken rest := by
  rcases List.eq_nil_or_concat rest with rfl | ⟨r, c, rfl⟩
  · exact .inl rfl
  · rcases h with h | ⟨front, h⟩
    · simp at h
    · have hlast := congrArg List.getLast? h
      rw [List.concat_eq_append, ← List.cons_append, ← List.append_assoc, List.getLast?_concat,
        List.getLast?_concat] at hlast
      exact .inr ⟨r, by rw [Option.some.inj hlast, List.concat_eq_append]⟩

theorem Broken.splitLines_append {a : List Char} (h : Broken a) (b : List Char) :
    splitLines (a ++ b) = splitLines a ++ splitLines b := by
  induction a using lines_induction with
  | nil => rfl
  | last cs hne hnot =>
    rcases h with rfl | ⟨body, rfl⟩
    · exact absurd rfl hne
    · simp at hnot
  | line body rest hbody ih =>
    rw [List.append_assoc, List.cons_append, Text.splitLines_append hbody,
      Text.splitLines_append hbody, ih h.behind, List.cons_append]

theorem IsLine.splitLines_append {front line back : List Char} (h : IsLine front line back) :
    splitLines (front ++ line ++ back) = splitLines front ++ line :: splitLines back := by
  rw [List.append_assoc, h.begins.splitLines_append]
  congr 1
  obtain ⟨body, hbody, rfl | ⟨rfl, hne, rfl⟩⟩ := h.stands
  · rw [List.append_assoc, List.singleton_append, Text.splitLines_append hbody]
  · rw [List.append_nil, splitLines_of_not_mem hne hbody]
    rfl

/-- The lines of a text are the lines that it is cut into. -/
theorem isLine_of_splitLines {cs line : List Char} {before after : List (List Char)}
    (h : splitLines cs = before ++ line :: after) : IsLine before.flatten line after.flatten := by
  induction cs using lines_induction generalizing before with
  | nil => simp [splitLines] at h
  | last cs hne hnot =>
    rw [splitLines_of_not_mem hne hnot] at h
    cases before with
    | nil =>
      obtain ⟨rfl, hafter⟩ := List.cons.inj h
      exact ⟨.inl rfl, cs, hnot, .inr ⟨rfl, hne, by rw [← hafter]; rfl⟩⟩
    | cons l before => simp at h
  | line body rest hbody ih =>
    rw [Text.splitLines_append hbody] at h
    cases before with
    | nil =>
      obtain ⟨rfl, -⟩ := List.cons.inj h
      exact ⟨.inl rfl, body, hbody, .inl rfl⟩
    | cons l before =>
      obtain ⟨rfl, hrest⟩ := List.cons.inj h
      have hline := ih hrest
      refine ⟨?_, hline.stands⟩
      rw [List.flatten_cons]
      exact Broken.append (.inr ⟨body, rfl⟩) hline.begins

theorem isLine_iff {front line back : List Char} : IsLine front line back ↔
    ∃ before after, splitLines (front ++ line ++ back) = before ++ line :: after ∧
      before.flatten = front ∧ after.flatten = back := by
  constructor
  · intro h
    exact ⟨_, _, h.splitLines_append, flatten_splitLines front, flatten_splitLines back⟩
  · rintro ⟨before, after, hlines, rfl, rfl⟩
    exact isLine_of_splitLines hlines

/-- Each of the first lines that a text is cut into is a line that begins among them. -/
theorem exists_isLine {cs line : List Char} {before after : List (List Char)}
    (h : splitLines cs = before ++ after) (hline : line ∈ before) : ∃ front back,
      cs = front ++ line ++ back ∧ IsLine front line back ∧
        front.length < before.flatten.length := by
  obtain ⟨first, others, rfl⟩ := List.append_of_mem hline
  rw [List.append_assoc, List.cons_append] at h
  have hcs : cs = first.flatten ++ line ++ (others ++ after).flatten := by
    rw [← flatten_splitLines cs, h]
    simp
  have hmem : line ∈ splitLines cs := by
    rw [h]
    simp
  have hpos := List.length_pos_iff.2 (ne_nil_of_mem_splitLines hmem)
  refine ⟨_, _, hcs, isLine_of_splitLines h, ?_⟩
  rw [List.flatten_append, List.flatten_cons, List.length_append, List.length_append]
  omega

end Stencil.Text
