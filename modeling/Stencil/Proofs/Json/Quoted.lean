import Stencil.Json.Basic
import Stencil.Proofs.Json.Source

/-!
# Quoting

Any text can be written between the quotes of a string, and is read back from there. A character
is written as itself, behind a backslash, or as the escape of its number (`quoteChar_cases`); each
of the three is well formed and is read as the character in front of any other literal
(`unquote?_quoteChar_append`).
-/

namespace Stencil.Json.Quoted

theorem hexValue?_hexDigit : ∀ n < 16, Percent.hexValue? (hexDigit n) = some n := by decide

/-- The written forms of a character. -/
theorem quoteChar_cases (c : Char) :
    (quoteChar c = [c] ∧ c ≠ '"' ∧ c ≠ '\\' ∧ 0x20 ≤ c.toNat) ∨
    (∃ e, quoteChar c = ['\\', e] ∧ e ≠ 'u' ∧ escaped? e = some c) ∨
    (quoteChar c = ['\\', 'u', '0', '0', hexDigit (c.toNat / 16), hexDigit (c.toNat % 16)] ∧
      c.toNat < 0x20) := by
  unfold quoteChar
  split
  next h => exact .inr (.inl ⟨'"', rfl, by decide, by rw [h]; rfl⟩)
  next hquote =>
    split
    next h => exact .inr (.inl ⟨'\\', rfl, by decide, by rw [h]; rfl⟩)
    next hescape =>
      split
      next h => exact .inr (.inl ⟨'b', rfl, by decide, by rw [h]; rfl⟩)
      split
      next h => exact .inr (.inl ⟨'f', rfl, by decide, by rw [h]; rfl⟩)
      split
      next h => exact .inr (.inl ⟨'n', rfl, by decide, by rw [h]; rfl⟩)
      split
      next h => exact .inr (.inl ⟨'r', rfl, by decide, by rw [h]; rfl⟩)
      split
      next h => exact .inr (.inl ⟨'t', rfl, by decide, by rw [h]; rfl⟩)
      split
      next hcontrol => exact .inr (.inr ⟨rfl, hcontrol⟩)
      next hcontrol => exact .inl ⟨rfl, hquote, hescape, by omega⟩

/-! ## Reading back -/

theorem parts?_char {c : Char} (h : c ≠ '\\') (literal : List Char) :
    parts? (c :: literal) = (parts? literal).map (.char c :: ·) := by
  rw [parts?]
  · simp [h]
  · intro a b c d r hc
    exact absurd hc h
  · intro e r hc
    exact absurd hc h

theorem parts?_escape {e c : Char} (hu : e ≠ 'u') (he : escaped? e = some c)
    (literal : List Char) :
    parts? ('\\' :: e :: literal) = (parts? literal).map (.char c :: ·) := by
  rw [parts?]
  · rw [he]
    cases parts? literal <;> rfl
  · intro a b c d r hc
    exact absurd hc hu

/-- The four digits of an escape give the number of the character. -/
theorem code?_toNat {c : Char} (h : c.toNat < 0x20) :
    code? '0' '0' (hexDigit (c.toNat / 16)) (hexDigit (c.toNat % 16)) = some c.toNat := by
  have high := hexValue?_hexDigit (c.toNat / 16) (by omega)
  have low := hexValue?_hexDigit (c.toNat % 16) (by omega)
  have zero : Percent.hexValue? '0' = some 0 := rfl
  simp only [code?, zero, high, low, Option.bind_eq_bind, Option.bind_some]
  congr 1
  omega

theorem parts?_code {c : Char} (h : c.toNat < 0x20) (literal : List Char) :
    parts? ('\\' :: 'u' :: '0' :: '0' :: hexDigit (c.toNat / 16) :: hexDigit (c.toNat % 16) ::
      literal) = (parts? literal).map (.code c.toNat :: ·) := by
  rw [parts?, code?_toNat h]
  cases parts? literal <;> rfl

/-- The number of a character below the surrogates stands for the character. -/
theorem join?_code {c : Char} (h : c.toNat < 0x20) (ps : List Part) :
    join? (.code c.toNat :: ps) = (join? ps).map (c :: ·) := by
  rw [join?.eq_def]
  dsimp only
  rw [if_neg (by omega), if_neg (by omega), Char.ofNat_toNat]

theorem unquote?_quoteChar_append (c : Char) (literal : List Char) :
    unquote? (quoteChar c ++ literal) = (unquote? literal).map (c :: ·) := by
  -- Whatever the part is, joining it with others puts the character in front of theirs.
  have key : ∀ p : Part, (∀ ps, join? (p :: ps) = (join? ps).map (c :: ·)) →
      ((parts? literal).map (p :: ·)).bind join? = (unquote? literal).map (c :: ·) := by
    intro p hp
    cases hparts : parts? literal with
    | none => simp [unquote?, hparts]
    | some ps => simp [unquote?, hparts, hp]
  rcases quoteChar_cases c with ⟨hform, -, hescape, -⟩ | ⟨e, hform, hu, he⟩ | ⟨hform, hcontrol⟩
  · rw [hform, unquote?, List.singleton_append, parts?_char hescape]
    exact key _ fun ps => rfl
  · rw [hform, unquote?, List.cons_append, List.singleton_append, parts?_escape hu he]
    exact key _ fun ps => rfl
  · rw [hform, unquote?]
    simp only [List.cons_append, List.nil_append]
    rw [parts?_code hcontrol]
    exact key _ (join?_code hcontrol)

/-- A text is read back from its literal. -/
theorem unquote?_quote (cs : List Char) : unquote? (quote cs) = some cs := by
  induction cs with
  | nil => rfl
  | cons c cs ih =>
    rw [quote, List.flatMap_cons, unquote?_quoteChar_append]
    exact congrArg (Option.map (c :: ·)) ih

/-! ## Well-formedness -/

theorem isStringLiteral_quoteChar_append (c : Char) {literal : List Char}
    (h : IsStringLiteral literal) : IsStringLiteral (quoteChar c ++ literal) := by
  rcases quoteChar_cases c with ⟨hform, hquote, hescape, hcontrol⟩ | ⟨e, hform, -, he⟩ |
    ⟨hform, hcontrol⟩
  · rw [hform]
    exact .char hquote hescape hcontrol h
  · rw [hform]
    exact .escape (by rw [he]; rfl) h
  · rw [hform]
    refine .code ?_ h
    have high := hexValue?_hexDigit (c.toNat / 16) (by omega)
    have low := hexValue?_hexDigit (c.toNat % 16) (by omega)
    have zero : Percent.hexValue? '0' = some 0 := rfl
    simp [zero, high, low]

theorem isStringLiteral_quote (cs : List Char) : IsStringLiteral (quote cs) := by
  induction cs with
  | nil => exact .nil
  | cons c cs ih => exact isStringLiteral_quoteChar_append c ih

end Stencil.Json.Quoted

namespace Stencil.Json

@[simp] theorem text?_quote (s : String) : text? (Quoted.quote s.toList) = some s := by
  simp [text?, Quoted.unquote?_quote]

end Stencil.Json
