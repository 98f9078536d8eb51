/-!
# Blank characters

`isBlank` is the Unicode property White_Space, `isAsciiBlank` its ASCII part without the vertical
tab. Trimming, splitting into words and scanning for blanks all go through these two classes.
The main statements are that trimming at the front drops blanks and nothing else
(`trimStart_append`) and leaves a text that starts with none (`trimStart_head`).
-/

namespace Stencil.Text

/-! ## Character classes -/

/-- The characters with the Unicode property White_Space. -/
def isBlank (c : Char) : Bool :=
  let n := c.toNat
  (9 ≤ n && n ≤ 13) || n == 0x20 || n == 0x85 || n == 0xA0 || n == 0x1680 ||
    (0x2000 ≤ n && n ≤ 0x200A) || n == 0x2028 || n == 0x2029 || n == 0x202F || n == 0x205F ||
    n == 0x3000

/-- Space, tab, line feed, form feed and carriage return. -/
def isAsciiBlank (c : Char) : Bool :=
  c == ' ' || c == '\t' || c == '\n' || c == '\x0c' || c == '\r'

/-- Every ASCII blank is a blank. -/
theorem isBlank_of_isAsciiBlank {c : Char} (h : isAsciiBlank c) : isBlank c := by
  simp only [isAsciiBlank, Bool.or_eq_true, beq_iff_eq] at h
  rcases h with (((rfl | rfl) | rfl) | rfl) | rfl <;> decide

/-- The printable ASCII characters are no blanks. -/
theorem isBlank_of_printable {c : Char} (h : 33 ≤ c.toNat ∧ c.toNat ≤ 126) :
    isBlank c = false := by
  simp only [isBlank, Bool.or_eq_false_iff, Bool.and_eq_false_iff, beq_eq_false_iff_ne,
    decide_eq_false_iff_not]
  omega

theorem isBlank_of_isDigit {c : Char} (h : c.isDigit) : isBlank c = false := by
  obtain ⟨hmin, hmax⟩ := Bool.and_eq_true_iff.1 h
  exact isBlank_of_printable ⟨Nat.le_trans (by decide) (of_decide_eq_true hmin),
    Nat.le_trans (of_decide_eq_true hmax) (by decide)⟩

theorem isBlank_of_isLower {c : Char} (h : c.isLower) : isBlank c = false := by
  obtain ⟨hmin, hmax⟩ := Bool.and_eq_true_iff.1 h
  exact isBlank_of_printable ⟨Nat.le_trans (by decide) (of_decide_eq_true hmin),
    Nat.le_trans (of_decide_eq_true hmax) (by decide)⟩

theorem isBlank_of_isUpper {c : Char} (h : c.isUpper) : isBlank c = false := by
  obtain ⟨hmin, hmax⟩ := of_decide_eq_true h
  exact isBlank_of_printable ⟨Nat.le_trans (by decide) hmin, Nat.le_trans hmax (by decide)⟩

/-- Letters and digits are no blanks. -/
theorem isBlank_of_isAlphanum {c : Char} (h : c.isAlphanum) : isBlank c = false := by
  rcases Bool.or_eq_true_iff.1 h with h | h
  · rcases Bool.or_eq_true_iff.1 h with h | h
    · exact isBlank_of_isUpper h
    · exact isBlank_of_isLower h
  · exact isBlank_of_isDigit h

/-! ## Trimming -/

/-- Drops the blanks in front. -/
def trimStart (cs : List Char) : List Char := cs.dropWhile isBlank

/-- Drops the blanks at the end. -/
def trimEnd (cs : List Char) : List Char := (cs.reverse.dropWhile isBlank).reverse

/-- Drops the blanks at both ends. -/
def trim (cs : List Char) : List Char := trimEnd (trimStart cs)

/-- What `trimStart` drops are blanks, and nothing is lost. -/
theorem trimStart_append (cs : List Char) :
    cs.takeWhile isBlank ++ trimStart cs = cs := List.takeWhile_append_dropWhile

/-- A text trimmed at the front starts with no blank. -/
theorem trimStart_head {cs r : List Char} {c : Char} (h : trimStart cs = c :: r) :
    isBlank c = false := by
  induction cs with
  | nil => simp [trimStart] at h
  | cons d cs ih =>
    by_cases hd : isBlank d
    · exact ih (by simpa [trimStart, hd] using h)
    · have : d = c := by
        have := h
        simp only [trimStart, List.dropWhile_cons, hd] at this
        simpa using (List.cons.inj this).1
      simpa [← this] using hd

/-- A text that starts with no blank is left alone at the front. -/
theorem trimStart_cons_of_not_blank {c : Char} {r : List Char} (h : isBlank c = false) :
    trimStart (c :: r) = c :: r := by simp [trimStart, h]

/-- A text that ends in no blank is left alone at the end. -/
theorem trimEnd_concat_of_not_blank {c : Char} {r : List Char} (h : isBlank c = false) :
    trimEnd (r ++ [c]) = r ++ [c] := by simp [trimEnd, h]

/-- A text that neither starts with a blank nor ends in one is left alone. -/
theorem trim_eq_self {cs : List Char} (hhead : ∀ c ∈ cs.head?, isBlank c = false)
    (hlast : ∀ c ∈ cs.getLast?, isBlank c = false) : trim cs = cs := by
  cases cs with
  | nil => rfl
  | cons c r =>
    have hne : c :: r ≠ [] := by simp
    have hconcat := List.dropLast_concat_getLast hne
    rw [trim, trimStart_cons_of_not_blank (hhead c rfl), ← hconcat]
    exact trimEnd_concat_of_not_blank (hlast _ (List.getLast?_eq_some_getLast hne))

/-- `trim` on strings. -/
def trimText (s : String) : String := String.ofList (trim s.toList)

/-! ## Words -/

/-- The first word of a text: its leading run of non-blanks once the blanks in front are gone. -/
def firstWord? (cs : List Char) : Option (List Char) :=
  match trimStart cs with
  | [] => none
  | c :: r => some ((c :: r).takeWhile fun d => !isBlank d)

end Stencil.Text
