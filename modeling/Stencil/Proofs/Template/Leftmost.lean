import Stencil.Proofs.Template.Placeholders

/-!
# The leftmost placeholder

Which placeholder of a text comes first, said of the text and not of how it is read: a placeholder
stands in the text wherever two opening braces, an inner text of at least one character on one
line, and two closing braces stand; the first one begins furthest left, and of those that begin
there it is the shortest (`First`). The main statements are that the pieces of a text are the
characters in front of its first placeholder, the placeholder, and the pieces of what follows it
(`First.pieces_eq`), that they are characters alone in a text without one
(`pieces_of_noPlaceholder`), and that every text is of one of these kinds
(`first_or_noPlaceholder`).
-/

namespace Stencil.Template

open Stencil.Text

/-- What may stand between the braces of a placeholder. -/
structure Inner (inner : List Char) : Prop where
  ne_nil : inner ≠ []
  one_line : '\n' ∉ inner

/-- The first placeholder of a text: none begins further left, and none that begins at the same
place is shorter. -/
structure First (text before inner after : List Char) : Prop where
  text_eq : text = before ++ write inner ++ after
  isInner : Inner inner
  leftmost : ∀ before' inner' after', Inner inner' → text = before' ++ write inner' ++ after' →
    before.length ≤ before'.length
  shortest : ∀ inner' after', Inner inner' → text = before ++ write inner' ++ after' →
    inner.length ≤ inner'.length

/-- A text in which no placeholder stands. -/
def NoPlaceholder (text : List Char) : Prop :=
  ∀ before inner after, Inner inner → text ≠ before ++ write inner ++ after

/-! ## At the front of a text -/

theorem not_mem_of_untilClose {cs inner : List Char} (h : untilClose cs = some inner) :
    '\n' ∉ inner := by
  induction cs generalizing inner with
  | nil => simp [untilClose] at h
  | cons c r ih =>
      unfold untilClose at h
      split at h
      · cases h
      next hc =>
        split at h
        · cases h
          simp
        · obtain ⟨i, hi, rfl⟩ := Option.map_eq_some_iff.1 h
          simp [ih hi, Ne.symm hc]

/-- What is read goes to two closing braces no further right than others on the line. -/
theorem untilClose_le {inner : List Char} (hline : '\n' ∉ inner) (rest : List Char) :
    ∃ i, untilClose (inner ++ '}' :: '}' :: rest) = some i ∧ i.length ≤ inner.length := by
  induction inner with
  | nil => exact ⟨[], by simp [untilClose]⟩
  | cons c inner ih =>
      rw [List.mem_cons, not_or] at hline
      obtain ⟨i, hi, hle⟩ := ih hline.2
      rw [List.cons_append, untilClose, if_neg (Ne.symm hline.1)]
      split
      · exact ⟨[], rfl, Nat.zero_le _⟩
      · exact ⟨c :: i, by rw [hi]; rfl, Nat.succ_le_succ hle⟩

/-- A placeholder that is read is one. -/
theorem inner_of_inner? {cs inner : List Char} (h : inner? cs = some inner) : Inner inner := by
  unfold inner? at h
  split at h
  next c r =>
    split at h
    · cases h
    next hc =>
      obtain ⟨i, hi, rfl⟩ := Option.map_eq_some_iff.1 h
      exact ⟨by simp, by simp [not_mem_of_untilClose hi, Ne.symm hc]⟩
  next => cases h

/-- Where a placeholder begins, one is read that is no longer. -/
theorem inner?_le {inner : List Char} (h : Inner inner) (rest : List Char) :
    ∃ i, inner? (write inner ++ rest) = some i ∧ i.length ≤ inner.length := by
  cases inner with
  | nil => exact absurd rfl h.ne_nil
  | cons c inner =>
      have hline := h.one_line
      rw [List.mem_cons, not_or] at hline
      obtain ⟨i, hi, hle⟩ := untilClose_le hline.2 rest
      refine ⟨c :: i, ?_, Nat.succ_le_succ hle⟩
      simp only [write, List.cons_append, List.append_assoc, List.nil_append, inner?]
      rw [if_neg (Ne.symm hline.1), hi]
      rfl

theorem not_append_of_inner?_eq_none {cs inner : List Char} (h : inner? cs = none)
    (hinner : Inner inner) (rest : List Char) : cs ≠ write inner ++ rest := by
  rintro rfl
  obtain ⟨i, hi, -⟩ := inner?_le hinner rest
  rw [h] at hi
  cases hi

/-! ## The first placeholder -/

/-- The placeholder that is read at the front is the first one. -/
theorem first_of_inner? {cs inner after : List Char} (h : inner? cs = some inner)
    (hcs : cs = write inner ++ after) : First cs [] inner after where
  text_eq := hcs
  isInner := inner_of_inner? h
  leftmost := fun _ _ _ _ _ => Nat.zero_le _
  shortest := by
    rintro inner' after' hinner' rfl
    obtain ⟨i, hi, hle⟩ := inner?_le hinner' after'
    rw [List.nil_append, hi] at h
    cases h
    exact hle

/-- Behind a character where no placeholder begins, the first one is that of the rest. -/
theorem First.cons {c : Char} {cs before inner after : List Char}
    (h : First cs before inner after) (hc : inner? (c :: cs) = none) :
    First (c :: cs) (c :: before) inner after where
  text_eq := by rw [h.text_eq]; rfl
  isInner := h.isInner
  leftmost := by
    intro before' inner' after' hinner' heq
    cases before' with
    | nil => exact absurd heq (not_append_of_inner?_eq_none hc hinner' after')
    | cons c' before' =>
        obtain ⟨-, heq⟩ := List.cons.inj heq
        exact Nat.succ_le_succ (h.leftmost before' inner' after' hinner' heq)
  shortest := by
    intro inner' after' hinner' heq
    exact h.shortest inner' after' hinner' (List.cons.inj heq).2

theorem NoPlaceholder.cons {c : Char} {cs : List Char} (h : NoPlaceholder cs)
    (hc : inner? (c :: cs) = none) : NoPlaceholder (c :: cs) := by
  intro before inner after hinner heq
  cases before with
  | nil => exact not_append_of_inner?_eq_none hc hinner after heq
  | cons c' before => exact h before inner after hinner (List.cons.inj heq).2

theorem NoPlaceholder.tail {c : Char} {cs : List Char} (h : NoPlaceholder (c :: cs)) :
    NoPlaceholder cs := by
  intro before inner after hinner heq
  exact h (c :: before) inner after hinner (by rw [heq]; rfl)

/-- Every text has a first placeholder or none at all. -/
theorem first_or_noPlaceholder (text : List Char) :
    (∃ before inner after, First text before inner after) ∨ NoPlaceholder text := by
  induction text with
  | nil =>
      refine .inr ?_
      intro before inner after _ heq
      have hlen := congrArg List.length heq
      simp [write] at hlen
  | cons c cs ih =>
      cases hf : inner? (c :: cs) with
      | some inner =>
          obtain ⟨after, hcs⟩ := eq_append_of_inner? hf
          exact .inl ⟨[], inner, after, first_of_inner? hf hcs⟩
      | none =>
          rcases ih with ⟨before, inner, after, hfirst⟩ | hnone
          · exact .inl ⟨c :: before, inner, after, hfirst.cons hf⟩
          · exact .inr (hnone.cons hf)

/-- In front of the first placeholder nothing is read. -/
theorem First.inner?_eq_none {c : Char} {cs before inner after : List Char}
    (h : First (c :: cs) (c :: before) inner after) : inner? (c :: cs) = none := by
  cases hf : inner? (c :: cs) with
  | none => rfl
  | some i =>
      obtain ⟨rest, hrest⟩ := eq_append_of_inner? hf
      have hle := h.leftmost [] i rest (inner_of_inner? hf) hrest
      simp at hle

theorem First.tail {c : Char} {cs before inner after : List Char}
    (h : First (c :: cs) (c :: before) inner after) : First cs before inner after where
  text_eq := (List.cons.inj h.text_eq).2
  isInner := h.isInner
  leftmost := by
    intro before' inner' after' hinner' heq
    have hle := h.leftmost (c :: before') inner' after' hinner' (by rw [heq]; rfl)
    exact Nat.le_of_succ_le_succ hle
  shortest := by
    intro inner' after' hinner' heq
    exact h.shortest inner' after' hinner' (by rw [heq]; rfl)

/-- The first placeholder is read where it begins. -/
theorem First.inner?_eq_some {text inner after : List Char} (h : First text [] inner after) :
    inner? text = some inner := by
  obtain ⟨i, hi, hle⟩ := inner?_le h.isInner after
  have htext : text = write inner ++ after := h.text_eq
  rw [← htext] at hi
  -- it is no longer than the one that is read, and both stand at the front
  obtain ⟨rest, hrest⟩ := eq_append_of_inner? hi
  have hge := h.shortest i rest (inner_of_inner? hi) hrest
  have hsame : write inner ++ after = write i ++ rest := htext.symm.trans hrest
  simp only [write, List.cons_append, List.append_assoc, List.cons.injEq, true_and] at hsame
  rw [hi, (List.append_inj hsame (Nat.le_antisymm hge hle)).1]

/-! ## Pieces -/

/-- The pieces of a text around its first placeholder. -/
theorem First.pieces_eq {text before inner after : List Char}
    (h : First text before inner after) :
    marker.pieces text = before.map .char ++ .span inner :: marker.pieces after := by
  induction before generalizing text with
  | nil =>
      have hcs : text = marker.write inner ++ after := h.text_eq
      exact marker.pieces_of_find h.inner?_eq_some hcs
  | cons c before ih =>
      obtain ⟨cs, rfl⟩ : ∃ cs, text = c :: cs := ⟨_, h.text_eq⟩
      rw [marker.pieces_cons h.inner?_eq_none, ih h.tail]
      rfl

/-- A text in which no placeholder stands consists of characters alone. -/
theorem pieces_of_noPlaceholder {text : List Char} (h : NoPlaceholder text) :
    marker.pieces text = text.map .char := by
  induction text with
  | nil => rfl
  | cons c cs ih =>
      have hnone : marker.find (c :: cs) = none := by
        cases hf : marker.find (c :: cs) with
        | none => rfl
        | some inner =>
            obtain ⟨rest, hrest⟩ := eq_append_of_inner? hf
            exact absurd hrest (h [] inner rest (inner_of_inner? hf))
      rw [marker.pieces_cons hnone, ih h.tail]
      rfl

end Stencil.Template
