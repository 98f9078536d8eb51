import Mathlib.Algebra.Group.Nat.Even
import Stencil.FileVariables
import Stencil.Text.Escape

/-!
# Escapes side by side

Escapes are read in pairs from the left, so whether a text ends inside an escape is decided by all
that stands in front. It is the parity of the backslashes at its end: each pair that is read leaves
it as it was (`even_backslashesAtEnd_pair`). Two texts are read one by one exactly if the first does
not end inside an escape, that is if it ends in an even number of backslashes
(`readEscapes_append_iff`). The main statement is `escapes_compositional`.
-/

namespace Stencil.Text

/-- How many backslashes stand at the end of a text. -/
def backslashesAtEnd (cs : List Char) : Nat := (cs.reverse.takeWhile (· == '\\')).length

/-- What a backslash and the character behind it stand for. -/
def readPair (c : Char) : List Char := (escaped? c).elim ['\\', c] ([·])

variable {a b cs : List Char} {c : Char}

/-! ## Parity -/

theorem backslashesAtEnd_le (cs : List Char) : backslashesAtEnd cs ≤ cs.length := by
  have h := (List.takeWhile_sublist (· == '\\') (l := cs.reverse)).length_le
  rwa [List.length_reverse] at h

/-- A character in front counts only where all the others are backslashes. -/
theorem backslashesAtEnd_cons (c : Char) (cs : List Char) :
    backslashesAtEnd (c :: cs) =
      if backslashesAtEnd cs = cs.length then cs.length + (if c = '\\' then 1 else 0)
      else backslashesAtEnd cs := by
  unfold backslashesAtEnd
  rw [List.reverse_cons, List.takeWhile_append, List.length_reverse]
  by_cases hc : c = '\\'
  · simp [apply_ite List.length, hc]
  · simp [apply_ite List.length, hc]

theorem backslashesAtEnd_cons_of_ne (hc : c ≠ '\\') (cs : List Char) :
    backslashesAtEnd (c :: cs) = backslashesAtEnd cs := by
  rw [backslashesAtEnd_cons, if_neg hc]
  split
  next h => exact h.symm
  next => rfl

/-- A pair that is read leaves the parity as it was. -/
theorem even_backslashesAtEnd_pair (c : Char) (cs : List Char) :
    Even (backslashesAtEnd ('\\' :: c :: cs)) ↔ Even (backslashesAtEnd cs) := by
  have hle := backslashesAtEnd_le cs
  rw [backslashesAtEnd_cons, backslashesAtEnd_cons c, List.length_cons]
  by_cases hall : backslashesAtEnd cs = cs.length
  · by_cases hc : c = '\\'
    · simp [hall, hc, Nat.even_add_one]
    · simp [hall, hc]
  · rw [if_neg hall, if_neg (by omega)]

/-! ## Reading -/

theorem readEscapes_of_not_mem (h : '\\' ∉ cs) : readEscapes cs = cs := by
  induction cs with
  | nil => rfl
  | cons c cs ih =>
      have hc : c ≠ '\\' := fun heq => h (heq ▸ List.mem_cons_self)
      rw [readEscapes_cons cs hc, ih fun hcs => h (List.mem_cons_of_mem c hcs)]

theorem unescape_eq (cs : List Char) : unescape cs = readEscapes cs := by
  unfold unescape
  split
  next => rfl
  next hnone => exact (readEscapes_of_not_mem (by simpa using hnone)).symm

theorem readEscapes_pair (c : Char) (cs : List Char) :
    readEscapes ('\\' :: c :: cs) = readPair c ++ readEscapes cs := by
  rw [readEscapes, if_pos rfl, readPair]
  cases escaped? c with
  | none => rfl
  | some e => rfl

/-- What is read of a text does not depend on what follows unless it ends inside an escape. -/
theorem readEscapes_append (h : Even (backslashesAtEnd a)) (b : List Char) :
    readEscapes (a ++ b) = readEscapes a ++ readEscapes b := by
  induction a using readEscapes.induct with
  | case1 => rfl
  | case2 c =>
      have hc : c ≠ '\\' := by
        rintro rfl
        exact absurd h (by decide)
      exact readEscapes_cons b hc
  | case3 d r e hd ih | case4 d r hd ih =>
      rw [List.cons_append, List.cons_append, readEscapes_pair, readEscapes_pair,
        ih ((even_backslashesAtEnd_pair d r).1 h), List.append_assoc]
  | case5 c d r hc ih =>
      rw [backslashesAtEnd_cons_of_ne hc] at h
      rw [List.cons_append, readEscapes_cons _ hc, readEscapes_cons _ hc, ih h, List.cons_append]

/-- A text that ends inside an escape has a backslash too much. -/
theorem exists_of_odd (h : ¬ Even (backslashesAtEnd cs)) :
    ∃ front, cs = front ++ ['\\'] ∧ Even (backslashesAtEnd front) := by
  rcases List.eq_nil_or_concat cs with rfl | ⟨front, c, rfl⟩
  · exact absurd Even.zero h
  · have hcount : backslashesAtEnd (front ++ [c]) =
        if c = '\\' then backslashesAtEnd front + 1 else 0 := by
      unfold backslashesAtEnd
      rw [List.reverse_append, List.reverse_singleton, List.singleton_append, List.takeWhile_cons]
      by_cases hc : c = '\\'
      · simp [hc]
      · simp [hc]
    rw [List.concat_eq_append, hcount] at h
    rw [List.concat_eq_append]
    split at h
    next hc =>
      rw [Nat.even_add_one, not_not] at h
      exact ⟨front, by rw [hc], h⟩
    next => exact absurd Even.zero h

theorem readEscapes_append_iff :
    (∀ b, readEscapes (a ++ b) = readEscapes a ++ readEscapes b) ↔ Even (backslashesAtEnd a) := by
  refine ⟨fun h => ?_, readEscapes_append⟩
  refine Classical.byContradiction fun hodd => ?_
  obtain ⟨front, rfl, hfront⟩ := exists_of_odd hodd
  -- A letter behind the lone backslash makes it an escape.
  have hnewline := h ['n']
  rw [List.append_assoc, readEscapes_append hfront, readEscapes_append hfront,
    List.append_assoc] at hnewline
  have hpair := List.append_cancel_left hnewline
  revert hpair
  decide

/-- The early end for texts without backslashes agrees with reading. Reading undoes writing, so a
value that is declared in its written form is the value. Two texts are read one by one, whatever
the second one is, exactly if the first ends in an even number of backslashes; behind such a text a
backslash at the end, or before a character that it says nothing with, stands for itself. -/
theorem escapes_compositional :
    (∀ cs, unescape cs = readEscapes cs) ∧
    (∀ cs, unescape (escape cs) = cs) ∧
    (∀ (vars : FileVariables) (name value : String),
      (vars.declare name (String.ofList (escape value.toList))).get? name = some value) ∧
    ∀ a, ((∀ b, unescape (a ++ b) = unescape a ++ unescape b) ↔ Even (backslashesAtEnd a)) ∧
      (Even (backslashesAtEnd a) →
        unescape (a ++ ['\\']) = unescape a ++ ['\\'] ∧
        ∀ c b, unescape (a ++ '\\' :: c :: b) = unescape a ++ readPair c ++ unescape b) := by
  have hescape : ∀ cs, unescape (escape cs) = cs := fun cs => by
    rw [unescape_eq, readEscapes_escape]
  refine ⟨unescape_eq, hescape, ?_, ?_⟩
  · intro vars name value
    rw [FileVariables.declare, FileVariables.insert, FileVariables.get?, Dict.get?_insert,
      if_pos rfl, String.toList_ofList, hescape, String.ofList_toList]
  · intro a
    simp only [unescape_eq]
    refine ⟨readEscapes_append_iff, fun h => ⟨readEscapes_append h _, fun c b => ?_⟩⟩
    rw [readEscapes_append h, readEscapes_pair, List.append_assoc]

/-- A Windows path: unknown escapes, an escaped backslash, and one that is cut in two. -/
theorem escapes_compositional_path :
    let a := "C:\\path\\\\".toList
    Even (backslashesAtEnd a) ∧
    unescape (a ++ "new\\n".toList) = "C:\\path\\new\n".toList ∧
    unescape (a ++ ['\\']) = "C:\\path\\\\".toList ∧
    ¬ (∀ b, unescape ("C:\\".toList ++ b) = unescape "C:\\".toList ++ unescape b) := by
  intro a
  obtain ⟨-, -, -, hsplit⟩ := escapes_compositional
  have heven : Even (backslashesAtEnd a) := by decide
  have hodd : ¬ Even (backslashesAtEnd "C:\\".toList) := by decide
  refine ⟨heven, ?_, ?_, fun h => hodd ((hsplit _).1.1 h)⟩
  · rw [(hsplit a).1.2 heven]
    decide
  · rw [((hsplit a).2 heven).1]
    decide

end Stencil.Text
