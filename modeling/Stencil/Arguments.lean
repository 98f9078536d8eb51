import Stencil.Text.Blank

/-!
# Arguments of an expression

An expression is cut into arguments at blanks. A quote, single or double, that begins an argument
opens a quoted run: up to the next quote of its sort everything belongs to the argument, and the
two quotes do not. Elsewhere a quote is an ordinary character. A run that is never closed keeps
its opening quote. `read_bare` and `read_quoted` say what a run takes of the text that follows.
-/

namespace Stencil.Arguments

open Stencil.Text

/-- Where a reader of arguments stands. The characters seen of the current argument are kept in
reverse. -/
inductive Mode where
  /-- Between two arguments. -/
  | between
  /-- In an argument, outside quotes. -/
  | bare (seen : List Char)
  /-- In a run opened by `quote`. -/
  | quoted (quote : Char) (seen : List Char)
  deriving Repr, DecidableEq

/-- The two quote characters. -/
def isQuote (c : Char) : Bool := c == '"' || c == '\''

/-- Reads the rest of an expression. -/
def read : Mode → List Char → List (List Char)
  | .between, [] => []
  | .bare seen, [] => [seen.reverse]
  | .quoted quote seen, [] => [quote :: seen.reverse]
  | .between, c :: cs =>
    if isQuote c then read (.quoted c []) cs
    else if isBlank c then read .between cs
    else read (.bare [c]) cs
  | .bare seen, c :: cs =>
    if isBlank c then seen.reverse :: read .between cs
    else read (.bare (c :: seen)) cs
  | .quoted quote seen, c :: cs =>
    if c = quote then read (.bare seen) cs
    else read (.quoted quote (c :: seen)) cs

/-- The arguments of an expression. -/
def split (expression : String) : List String :=
  (read .between expression.toList).map String.ofList

theorem isBlank_of_isQuote {c : Char} (h : isQuote c) : isBlank c = false := by
  rw [isQuote, Bool.or_eq_true, beq_iff_eq, beq_iff_eq] at h
  rcases h with rfl | rfl <;> rfl

theorem read_cons_of_isBlank {c : Char} (h : isBlank c) (cs : List Char) :
    read .between (c :: cs) = read .between cs := by
  have hquote : ¬ isQuote c := by
    intro hquote
    rw [isBlank_of_isQuote hquote] at h
    cases h
  rw [read, if_neg hquote, if_pos h]

/-- Blanks between two arguments are skipped. -/
theorem read_blanks {blanks : List Char} (h : ∀ c ∈ blanks, isBlank c) (cs : List Char) :
    read .between (blanks ++ cs) = read .between cs := by
  induction blanks with
  | nil => rfl
  | cons c blanks ih =>
    obtain ⟨hc, hblanks⟩ := List.forall_mem_cons.1 h
    rw [List.cons_append, read_cons_of_isBlank hc, ih hblanks]

/-- Outside quotes an argument ends at the next blank. -/
theorem read_bare (seen cs : List Char) : read (.bare seen) cs =
    (seen.reverse ++ cs.takeWhile fun c => !isBlank c) ::
      read .between (cs.dropWhile fun c => !isBlank c) := by
  induction cs generalizing seen with
  | nil => simp [read]
  | cons c cs ih =>
    by_cases h : isBlank c = true
    · simp [read, h, read_cons_of_isBlank h]
    · simp [read, h, ih]

/-- All characters that are not the quote belong to a run. -/
theorem read_quoted {quote : Char} {run : List Char} (h : quote ∉ run) (seen cs : List Char) :
    read (.quoted quote seen) (run ++ cs) = read (.quoted quote (run.reverse ++ seen)) cs := by
  induction run generalizing seen with
  | nil => rfl
  | cons c run ih =>
    obtain ⟨hc, hrun⟩ := not_or.1 (mt List.mem_cons.2 h)
    rw [List.cons_append, read, if_neg (Ne.symm hc), ih hrun]
    simp

end Stencil.Arguments
