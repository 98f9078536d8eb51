import Stencil.Text.Blank

/-!
# Scanning JSON values

A value is taken off the front of a text without reading what it says: a string up to its closing
quote, an object or an array up to the bracket that closes it, where brackets in strings do not
count, and anything else up to a comma, a closing bracket or a blank. The main statement is that
the value and what follows it are the text (`eq_append_of_value?`).
-/

namespace Stencil.JsonPath

open Stencil.Text

/-- A text without the ASCII blanks in front. -/
def skipBlanks (cs : List Char) : List Char := cs.dropWhile isAsciiBlank

/-- Puts a character in front of the first part. -/
def onto (c : Char) : List Char × List Char → List Char × List Char
  | (front, rest) => (c :: front, rest)

/-- Takes a string whose opening quote has been read, up to its closing quote. A backslash and the
character behind it belong together. -/
def string? : List Char → Option (List Char × List Char)
  | [] => none
  | [c] => if c = '"' then some ([c], []) else none
  | c :: d :: r =>
    if c = '"' then some ([c], d :: r)
    else if c = '\\' then (string? r).map (onto c ∘ onto d)
    else (string? (d :: r)).map (onto c)

/-- Where a scan of brackets stands. -/
inductive Inside where
  /-- Outside strings. -/
  | brackets
  /-- In a string. -/
  | string
  /-- In a string, behind a backslash. -/
  | escape
  deriving Repr, DecidableEq

/-- Takes what is left of a container in which `depth` brackets besides the first are open. -/
def container? (opening closing : Char) :
    Inside → (depth : Nat) → List Char → Option (List Char × List Char)
  | _, _, [] => none
  | .escape, depth, c :: r => (container? opening closing .string depth r).map (onto c)
  | .string, depth, c :: r =>
    if c = '\\' then (container? opening closing .escape depth r).map (onto c)
    else if c = '"' then (container? opening closing .brackets depth r).map (onto c)
    else (container? opening closing .string depth r).map (onto c)
  | .brackets, depth, c :: r =>
    if c = '"' then (container? opening closing .string depth r).map (onto c)
    else if c = opening then
      (container? opening closing .brackets (depth + 1) r).map (onto c)
    else if c = closing then
      match depth with
      | 0 => some ([c], r)
      | depth + 1 => (container? opening closing .brackets depth r).map (onto c)
    else (container? opening closing .brackets depth r).map (onto c)

/-- The characters that end a value without brackets and quotes. -/
def endsWord (c : Char) : Bool := c == ',' || c == '}' || c == ']' || isAsciiBlank c

/-- Takes a value off the front of a text; blanks may stand before it. -/
def value? (cs : List Char) : Option (List Char × List Char) :=
  match skipBlanks cs with
  | [] => none
  | c :: r =>
    if c = '"' then (string? r).map (onto c)
    else if c = '{' then (container? '{' '}' .brackets 0 r).map (onto c)
    else if c = '[' then (container? '[' ']' .brackets 0 r).map (onto c)
    else if endsWord c then none
    else
      let inWord := fun d => !endsWord d
      some ((c :: r).takeWhile inWord, (c :: r).dropWhile inWord)

/-! ## What is taken -/

/-- What is taken and what follows are the text, and something is taken. -/
def Splits (cs : List Char) (parts : List Char × List Char) : Prop :=
  cs = parts.1 ++ parts.2 ∧ parts.1 ≠ []

theorem Splits.onto {c : Char} {r : List Char} {parts : List Char × List Char}
    (h : Splits r parts) : Splits (c :: r) (onto c parts) := by
  obtain ⟨h1, _⟩ := h
  exact ⟨by simp [JsonPath.onto, h1], by simp [JsonPath.onto]⟩

theorem splits_of_string? {cs : List Char} {parts : List Char × List Char}
    (h : string? cs = some parts) : Splits cs parts := by
  fun_induction string? cs generalizing parts with
  | case1 => cases h
  | case2 => cases h; exact ⟨rfl, by simp⟩
  | case3 => cases h
  | case4 => cases h; exact ⟨rfl, by simp⟩
  | case5 d r _ ih =>
    obtain ⟨p, hp, rfl⟩ := Option.map_eq_some_iff.1 h
    exact (ih hp).onto.onto
  | case6 c d r _ _ ih =>
    obtain ⟨p, hp, rfl⟩ := Option.map_eq_some_iff.1 h
    exact (ih hp).onto

theorem splits_of_container? {opening closing : Char} {inside : Inside} {depth : Nat}
    {cs : List Char} {parts : List Char × List Char}
    (h : container? opening closing inside depth cs = some parts) : Splits cs parts := by
  induction cs generalizing inside depth parts with
  | nil => simp [container?] at h
  | cons c r ih =>
    cases inside with
    | escape =>
      obtain ⟨p, hp, rfl⟩ := Option.map_eq_some_iff.1 h
      exact (ih hp).onto
    | string =>
      simp only [container?] at h
      split at h
      · obtain ⟨p, hp, rfl⟩ := Option.map_eq_some_iff.1 h
        exact (ih hp).onto
      · split at h <;>
        · obtain ⟨p, hp, rfl⟩ := Option.map_eq_some_iff.1 h
          exact (ih hp).onto
    | brackets =>
      simp only [container?] at h
      split at h
      · obtain ⟨p, hp, rfl⟩ := Option.map_eq_some_iff.1 h
        exact (ih hp).onto
      · split at h
        · obtain ⟨p, hp, rfl⟩ := Option.map_eq_some_iff.1 h
          exact (ih hp).onto
        · split at h
          · cases depth with
            | zero => cases h; exact ⟨rfl, by simp⟩
            | succ depth =>
              obtain ⟨p, hp, rfl⟩ := Option.map_eq_some_iff.1 h
              exact (ih hp).onto
          · obtain ⟨p, hp, rfl⟩ := Option.map_eq_some_iff.1 h
            exact (ih hp).onto

/-- A value that is taken stands in the text behind blanks, and is not empty. -/
theorem eq_append_of_value? {cs : List Char} {parts : List Char × List Char}
    (h : value? cs = some parts) :
    cs = cs.takeWhile isAsciiBlank ++ parts.1 ++ parts.2 ∧ parts.1 ≠ [] := by
  have key : Splits (skipBlanks cs) parts := by
    unfold value? at h
    split at h
    · cases h
    next c r hs =>
      rw [hs]
      split at h
      · obtain ⟨p, hp, rfl⟩ := Option.map_eq_some_iff.1 h
        exact (splits_of_string? hp).onto
      · split at h
        · obtain ⟨p, hp, rfl⟩ := Option.map_eq_some_iff.1 h
          exact (splits_of_container? hp).onto
        · split at h
          · obtain ⟨p, hp, rfl⟩ := Option.map_eq_some_iff.1 h
            exact (splits_of_container? hp).onto
          · split at h
            · cases h
            next hc =>
              cases h
              exact ⟨by simp [List.takeWhile_append_dropWhile], by simp [hc]⟩
  obtain ⟨h1, h2⟩ := key
  refine ⟨?_, h2⟩
  rw [List.append_assoc, ← h1]
  exact List.takeWhile_append_dropWhile.symm

end Stencil.JsonPath
