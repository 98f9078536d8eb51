import Stencil.Arguments

/-!
# Quoting arguments

An argument is written bare or between quotes (`Written`), and several arguments are written one
after the other with blanks between them (`Joined`). Splitting such a text gives the arguments
back, and a run that is opened behind them and never closed is one more argument, up to the end of
the text (`split_joined`). Every argument that does not hold both quotes can be written.
-/

namespace Stencil.Arguments

open Text

/-- The texts of an argument: itself, where the reader would not take a part of it for something
else, or the argument between two quotes of a sort that it does not hold. -/
inductive Written (arg : List Char) : List Char → Prop
  | bare : arg ≠ [] → (∀ c ∈ arg, isBlank c = false) → (∀ c ∈ arg.head?, isQuote c = false) →
      Written arg arg
  | quoted {quote : Char} : isQuote quote → quote ∉ arg → Written arg (quote :: arg ++ [quote])

/-- The texts of several arguments, with at least one blank between any two of them. -/
inductive Joined : List (List Char) → List Char → Prop
  | nil : Joined [] []
  | single {arg text : List Char} : Written arg text → Joined [arg] text
  | cons {arg text gap next rest : List Char} {args : List (List Char)} : Written arg text →
      gap ≠ [] → (∀ c ∈ gap, isBlank c) → Joined (next :: args) rest →
      Joined (arg :: next :: args) (text ++ gap ++ rest)

/-- No argument goes on into a text: it is empty or begins with a blank. -/
def Stops (cs : List Char) : Prop := ∀ c ∈ cs.head?, isBlank c

theorem stops_append {gap : List Char} (hne : gap ≠ []) (hgap : ∀ c ∈ gap, isBlank c)
    (cs : List Char) : Stops (gap ++ cs) := by
  cases gap with
  | nil => exact absurd rfl hne
  | cons d gap =>
    intro c hc
    obtain rfl : d = c := by simpa using hc
    exact hgap d List.mem_cons_self

/-! ## Reading what was written -/

/-- An argument that is being read ends where the text stops. -/
theorem read_bare_of_stops {cs : List Char} (h : Stops cs) (seen : List Char) :
    read (.bare seen) cs = seen.reverse :: read .between cs := by
  cases cs with
  | nil => rfl
  | cons c cs =>
    have hc : isBlank c = true := h c rfl
    simp [read_bare, hc]

theorem Written.read_append {arg text cs : List Char} (h : Written arg text) (hstops : Stops cs) :
    read .between (text ++ cs) = arg :: read .between cs := by
  cases h with
  | bare hne hblank hquote =>
    cases arg with
    | nil => exact absurd rfl hne
    | cons c r =>
      obtain ⟨hc, hr⟩ := List.forall_mem_cons.1 hblank
      have hfirst : isQuote c = false := hquote c rfl
      have hall : ∀ d ∈ r, (!isBlank d) = true := by
        intro d hd
        simp [hr d hd]
      have hread := read_bare_of_stops hstops [c]
      rw [read_bare] at hread
      obtain ⟨htake, hdrop⟩ := List.cons.inj hread
      rw [List.cons_append, read, if_neg (by simp [hfirst]), if_neg (by simp [hc]), read_bare,
        List.takeWhile_append_of_pos hall, List.dropWhile_append_of_pos hall, hdrop]
      simpa using htake
  | @quoted quote hquote hnot =>
    rw [List.append_assoc, List.cons_append, read, if_pos hquote, read_quoted hnot,
      List.singleton_append, read, if_pos rfl, read_bare_of_stops hstops]
    simp

/-- Arguments are read one by one; the last one needs the text to stop behind it. -/
theorem Joined.read_append {args : List (List Char)} {text cs : List Char} (h : Joined args text)
    (hstops : args = [] ∨ Stops cs) :
    read .between (text ++ cs) = args ++ read .between cs := by
  induction h with
  | nil => rfl
  | single hwritten =>
    rcases hstops with hnil | hstops
    · cases hnil
    · exact hwritten.read_append hstops
  | @cons arg text gap next rest args hwritten hne hgap _ ih =>
    have hbehind : Stops cs := by
      rcases hstops with hnil | hstops
      · cases hnil
      · exact hstops
    rw [List.append_assoc, List.append_assoc, hwritten.read_append (stops_append hne hgap _),
      read_blanks hgap, ih (.inr hbehind)]
    rfl

/-! ## Writing -/

theorem exists_written {arg : List Char} (h : '"' ∉ arg ∨ '\'' ∉ arg) :
    ∃ text, Written arg text := by
  rcases h with h | h
  · have hquote : isQuote '"' := rfl
    exact ⟨_, .quoted hquote h⟩
  · have hquote : isQuote '\'' := rfl
    exact ⟨_, .quoted hquote h⟩

theorem exists_joined {args : List (List Char)} (h : ∀ arg ∈ args, '"' ∉ arg ∨ '\'' ∉ arg) :
    ∃ text, Joined args text := by
  induction args with
  | nil => exact ⟨[], .nil⟩
  | cons arg args ih =>
    obtain ⟨harg, hargs⟩ := List.forall_mem_cons.1 h
    obtain ⟨text, htext⟩ := exists_written harg
    obtain ⟨rest, hrest⟩ := ih hargs
    cases args with
    | nil => exact ⟨text, .single htext⟩
    | cons next args =>
      have hblank : ∀ c ∈ [' '], isBlank c := by simp [isBlank]
      exact ⟨_, .cons htext (by simp) hblank hrest⟩

/-! ## Splitting -/

/-- Arguments of which none holds both quotes can be written, and splitting gives arguments back
however they were written, whatever blanks stand around them. A quote where an argument may begin
opens a run; if it is never closed, it and all that follows it is the last argument. -/
theorem split_joined (args : List (List Char)) :
    ((∀ arg ∈ args, '"' ∉ arg ∨ '\'' ∉ arg) → ∃ text, Joined args text) ∧
    ∀ text before after : List Char, Joined args text → (∀ c ∈ before, isBlank c) →
      (∀ c ∈ after, isBlank c) →
      split (String.ofList (before ++ text ++ after)) = args.map String.ofList ∧
      ∀ (quote : Char) (run : List Char), isQuote quote → quote ∉ run →
        (args = [] ∨ after ≠ []) →
        split (String.ofList (before ++ text ++ after ++ quote :: run)) =
          (args ++ [quote :: run]).map String.ofList := by
  refine ⟨exists_joined, ?_⟩
  intro text before after hjoined hbefore hafter
  -- What is read of the text depends on what follows it only if it goes on without a blank.
  have hread : ∀ rest : List Char, (args = [] ∨ Stops (after ++ rest)) →
      read .between (before ++ text ++ after ++ rest) = args ++ read .between rest := by
    intro rest hstops
    rw [List.append_assoc, List.append_assoc, read_blanks hbefore, hjoined.read_append hstops,
      read_blanks hafter]
  refine ⟨?_, ?_⟩
  · have hstops : Stops (after ++ []) := by
      intro c hc
      rw [List.append_nil] at hc
      exact hafter c (List.mem_of_mem_head? hc)
    have hall := hread [] (.inr hstops)
    rw [List.append_nil] at hall
    rw [split, String.toList_ofList, hall]
    simp [read]
  · intro quote run hquote hrun hstart
    have hlast : read .between (quote :: run) = [quote :: run] := by
      have hopen := read_quoted hrun [] []
      rw [List.append_nil] at hopen
      rw [read, if_pos hquote, hopen]
      simp [read]
    rw [split, String.toList_ofList, hread, hlast]
    rcases hstart with hnil | hne
    · exact .inl hnil
    · exact .inr (stops_append hne hafter _)

/-- A quote inside a bare argument, an argument that is nothing but quotes, blanks of other sorts,
and a run that is not closed. -/
theorem split_joined_apostrophe :
    let args := ["it's".toList, [], "\"two\" words".toList]
    let text := "it's\u00a0\n'' '\"two\" words'".toList
    Joined args text ∧
      split (String.ofList ([' '] ++ text ++ ['\t'])) = ["it's", "", "\"two\" words"] ∧
      split (String.ofList ([' '] ++ text ++ ['\t'] ++ '"' :: "it's open ".toList)) =
        ["it's", "", "\"two\" words", "\"it's open "] := by
  intro args text
  have hsingle : isQuote '\'' := rfl
  have hbare : Written "it's".toList "it's".toList :=
    .bare (by simp) (by simp [isBlank]) (by simp [isQuote])
  have hempty : Written [] ['\'', '\''] := .quoted hsingle (by simp)
  have hnot : '\'' ∉ "\"two\" words".toList := by simp
  have hquoted : Written "\"two\" words".toList "'\"two\" words'".toList := .quoted hsingle hnot
  have hgap : ∀ c ∈ ['\u00a0', '\n'], isBlank c := by simp [isBlank]
  have hblank : ∀ c ∈ [' '], isBlank c := by simp [isBlank]
  have htab : ∀ c ∈ ['\t'], isBlank c := by simp [isBlank]
  have hjoined : Joined args text :=
    .cons hbare (by simp) hgap (.cons hempty (by simp) hblank (.single hquoted))
  obtain ⟨-, hsplit⟩ := split_joined args
  obtain ⟨hclosed, hopen⟩ := hsplit text [' '] ['\t'] hjoined hblank htab
  exact ⟨hjoined, hclosed, hopen '"' "it's open ".toList rfl (by simp) (.inr (by simp))⟩

end Stencil.Arguments
