import Mathlib.Data.List.TakeWhile
import Stencil.Text.Blank

/-!
# Trimming

Blanks around a text do not change what trimming gives (`trim_blanks_append`,
`trim_append_blanks`), a text begins after trimming as it does behind the blanks in front of it
(`head?_trim`), and trimming is determined by what it drops and by how the rest begins and ends
(`trim_eq_iff`).
-/

namespace Stencil.Text

/-- Blanks in front are trimmed. -/
theorem trim_blanks_append {front : List Char} (h : ∀ c ∈ front, isBlank c) (cs : List Char) :
    trim (front ++ cs) = trim cs := by
  rw [trim, trimStart, List.dropWhile_append_of_pos h]
  rfl

/-- Blanks at the end are trimmed. -/
theorem trim_append_blanks {back : List Char} (h : ∀ c ∈ back, isBlank c) (cs : List Char) :
    trim (cs ++ back) = trim cs := by
  have hend : ∀ r : List Char, trimEnd (r ++ back) = trimEnd r := by
    intro r
    have hreverse : ∀ c ∈ back.reverse, isBlank c := fun c hc => h c (List.mem_reverse.1 hc)
    rw [trimEnd, List.reverse_append, List.dropWhile_append_of_pos hreverse]
    rfl
  rw [trim, trim, trimStart, List.dropWhile_append]
  split
  next hblank =>
    have hcs : trimStart cs = [] := List.isEmpty_iff.1 hblank
    have hback : back.dropWhile isBlank = [] := List.dropWhile_eq_nil_iff.2 h
    rw [hcs, hback]
  next => exact hend (trimStart cs)

theorem trim_eq_nil_iff {cs : List Char} : trim cs = [] ↔ ∀ c ∈ cs, isBlank c := by
  constructor
  · intro h
    cases hstart : trimStart cs with
    | nil => exact List.dropWhile_eq_nil_iff.1 hstart
    | cons c r =>
      rw [trim, trimEnd, List.reverse_eq_nil_iff, List.dropWhile_eq_nil_iff, hstart] at h
      have hc : isBlank c = true := h c (by simp)
      rw [trimStart_head hstart] at hc
      cases hc
  · intro h
    rw [← List.append_nil cs, trim_blanks_append h]
    rfl

/-- What `trimEnd` drops are blanks, and nothing is lost. -/
theorem exists_trimEnd_append (cs : List Char) :
    ∃ back, cs = trimEnd cs ++ back ∧ ∀ c ∈ back, isBlank c := by
  refine ⟨(cs.reverse.takeWhile isBlank).reverse, ?_, ?_⟩
  · rw [trimEnd, ← List.reverse_append, List.takeWhile_append_dropWhile, List.reverse_reverse]
  · intro c hc
    exact List.all_eq_true.1 List.all_takeWhile c (List.mem_reverse.1 hc)

/-- A text begins after trimming as it does when it is trimmed at the front only. -/
theorem head?_trim (cs : List Char) : (trim cs).head? = (trimStart cs).head? := by
  cases htrim : trim cs with
  | nil =>
    have hstart : trimStart cs = [] := List.dropWhile_eq_nil_iff.2 (trim_eq_nil_iff.1 htrim)
    rw [hstart]
  | cons c r =>
    obtain ⟨back, hback, -⟩ := exists_trimEnd_append (trimStart cs)
    have htrimEnd : trimEnd (trimStart cs) = c :: r := htrim
    rw [hback, htrimEnd]
    rfl

/-- Trimming gives the part of a text that has nothing but blanks around it and neither begins nor
ends with one. -/
theorem trim_eq_iff {cs body : List Char} :
    trim cs = body ↔
      (∃ front back, cs = front ++ body ++ back ∧ (∀ c ∈ front, isBlank c) ∧
        ∀ c ∈ back, isBlank c) ∧
      (∀ c ∈ body.head?, isBlank c = false) ∧ ∀ c ∈ body.getLast?, isBlank c = false := by
  constructor
  · rintro rfl
    refine ⟨?_, ?_, ?_⟩
    · obtain ⟨back, hback, hblank⟩ := exists_trimEnd_append (trimStart cs)
      refine ⟨cs.takeWhile isBlank, back, ?_, List.all_eq_true.1 List.all_takeWhile, hblank⟩
      rw [List.append_assoc, trim, ← hback, trimStart_append]
    · intro c hc
      rw [head?_trim] at hc
      obtain ⟨r, hstart⟩ := List.head?_eq_some_iff.1 hc
      exact trimStart_head hstart
    · -- The end of the text is the front of its reverse.
      intro c hc
      rw [trim, trimEnd, List.getLast?_reverse] at hc
      obtain ⟨r, hstart⟩ := List.head?_eq_some_iff.1 hc
      exact trimStart_head hstart
  · rintro ⟨⟨front, back, rfl, hfront, hback⟩, hhead, hlast⟩
    rw [List.append_assoc, trim_blanks_append hfront, trim_append_blanks hback,
      trim_eq_self hhead hlast]

theorem isInfix_trim (cs : List Char) : trim cs <:+: cs := by
  obtain ⟨⟨front, back, heq, -, -⟩, -⟩ := trim_eq_iff.1 (Eq.refl (trim cs))
  exact ⟨front, back, heq.symm⟩

end Stencil.Text
