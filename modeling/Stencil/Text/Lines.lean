/-!
# Lines

`splitLines` cuts a text behind every line feed and keeps the line feeds; `lines` drops the line
ends, a carriage return before a line feed with it. The main statement is that cutting into lines
loses nothing (`flatten_splitLines`).
-/

namespace Stencil.Text

/-- The lines of a text, each with the line feed that ends it; the last one may have none. -/
def splitLines : List Char → List (List Char)
  | [] => []
  | c :: r =>
    if c = '\n' then [c] :: splitLines r
    else match splitLines r with
      | [] => [[c]]
      | line :: rest => (c :: line) :: rest

/-- A line without its end: a line feed, or a carriage return and a line feed. -/
def dropLineEnd (line : List Char) : List Char :=
  match line.reverse with
  | '\n' :: '\r' :: r => r.reverse
  | '\n' :: r => r.reverse
  | _ => line

/-- The lines of a text without their ends. -/
def lines (cs : List Char) : List (List Char) := (splitLines cs).map dropLineEnd

/-- The lines of a text, put one after the other, are the text. -/
theorem flatten_splitLines (cs : List Char) : (splitLines cs).flatten = cs := by
  induction cs with
  | nil => rfl
  | cons c r ih =>
    by_cases hc : c = '\n'
    · simp [splitLines, hc, ih]
    · simp only [splitLines, hc, if_false]
      cases h : splitLines r with
      | nil => rw [h] at ih; simp at ih; simp [ih]
      | cons line rest => rw [h] at ih; simp at ih; simp [ih]

/-- No line is empty. -/
theorem ne_nil_of_mem_splitLines {cs line : List Char} (h : line ∈ splitLines cs) : line ≠ [] := by
  induction cs generalizing line with
  | nil => simp [splitLines] at h
  | cons c r ih =>
    by_cases hc : c = '\n'
    · simp only [splitLines, hc, if_true, List.mem_cons] at h
      rcases h with rfl | h
      · simp
      · exact ih h
    · simp only [splitLines, hc, if_false] at h
      cases hr : splitLines r with
      | nil => simp only [hr, List.mem_singleton] at h; simp [h]
      | cons l rest =>
        simp only [hr, List.mem_cons] at h
        rcases h with rfl | h
        · simp
        · exact ih (by rw [hr]; exact List.mem_cons_of_mem _ h)

/-- What ends in a line feed is a line, and others follow it. -/
theorem splitLines_append {body : List Char} (h : '\n' ∉ body) (rest : List Char) :
    splitLines (body ++ '\n' :: rest) = (body ++ ['\n']) :: splitLines rest := by
  induction body with
  | nil => simp [splitLines]
  | cons c body ih =>
    obtain ⟨hc, hbody⟩ := not_or.1 (mt List.mem_cons.2 h)
    simp [splitLines, Ne.symm hc, ih hbody]

/-- A text without a line feed is one line. -/
theorem splitLines_of_not_mem {cs : List Char} (hne : cs ≠ []) (h : '\n' ∉ cs) :
    splitLines cs = [cs] := by
  induction cs with
  | nil => exact absurd rfl hne
  | cons c cs ih =>
    obtain ⟨hc, hcs⟩ := not_or.1 (mt List.mem_cons.2 h)
    cases cs with
    | nil => simp [splitLines, Ne.symm hc]
    | cons d cs => rw [splitLines, if_neg (Ne.symm hc), ih (by simp) hcs]

/-- A text is read line by line: what holds of the empty text and of a text in one unfinished
line, and of a text if it holds of what follows its first line, holds of every text. -/
theorem lines_induction {motive : List Char → Prop} (nil : motive [])
    (last : ∀ cs, cs ≠ [] → '\n' ∉ cs → motive cs)
    (line : ∀ body rest, '\n' ∉ body → motive rest → motive (body ++ '\n' :: rest))
    (cs : List Char) : motive cs := by
  induction hn : cs.length using Nat.strongRecOn generalizing cs with
  | _ n ih =>
    by_cases hne : cs = []
    · exact hne ▸ nil
    · by_cases hmem : '\n' ∈ cs
      · obtain ⟨body, rest, rfl, hbody⟩ := List.eq_append_cons_of_mem hmem
        have hlen : rest.length < n := by
          rw [← hn, List.length_append, List.length_cons]
          omega
        exact line body rest hbody (ih rest.length hlen rest rfl)
      · exact last cs hne hmem

end Stencil.Text
