import Stencil.Dotenv
import Stencil.Proofs.Text.Blank

/-!
# Reading settings that were written

How a line of a file of settings is written is said by `Says`: blanks or a comment, an entry with
its value between two equal quotes, or anything else without an equals sign. A file that is
written row by row is read back (`read_rows`): each key has the value of its last entry, and the
rows without an equals sign are reported, each with its place in the file.

Reading a line depends on the line without the blanks around it only (`readLine_of_trim`), so
neither the blanks around a row nor the end of its line change what is read.
-/

namespace Stencil.Dotenv

open Text

/-! ## Rows -/

/-- The word that may stand in front of a key, and a blank. -/
def exportMark : List Char := ['e', 'x', 'p', 'o', 'r', 't', ' ']

/-- A text without the word in front of it. -/
def dropExport (text : List Char) : List Char := (stripPrefix? exportMark text).getD text

/-- The first character of a line that is no blank is a number sign. -/
def IsComment (line : List Char) : Prop :=
  ∃ blanks text, (∀ c ∈ blanks, isBlank c) ∧ line = blanks ++ '#' :: text

/-- A text that is trimmed and that neither a comment nor the word in front of a key begins, and
that has no equals sign. -/
structure IsKey (key : List Char) : Prop where
  trimmed : trim key = key
  equals_not_mem : '=' ∉ key
  not_comment : ∀ c ∈ key.head?, c ≠ '#'
  not_export : ¬ exportMark <+: key

/-- What may stand in front of a key: nothing, or the word, with blanks behind it. -/
def IsLead (lead : List Char) : Prop :=
  lead = [] ∨ ∃ blanks, (∀ c ∈ blanks, isBlank c) ∧ lead = exportMark ++ blanks

/-- What a line without its end says, by how it is written. -/
inductive Says : List Char → Line → Prop
  | blank {line : List Char} : (∀ c ∈ line, isBlank c) → Says line .nothing
  | comment {line : List Char} : IsComment line → Says line .nothing
  | entry {before after lead key value : List Char} {quote : Char} : (∀ c ∈ before, isBlank c) →
      (∀ c ∈ after, isBlank c) → IsLead lead → IsKey key → (quote = '"' ∨ quote = '\'') →
      Says (before ++ (lead ++ key ++ '=' :: quote :: value ++ [quote]) ++ after) (.entry key value)
  | invalid {line : List Char} : (¬ ∀ c ∈ line, isBlank c) → ¬ IsComment line → '=' ∉ line →
      Says line (.invalid (dropExport (trim line)))

/-- A line of a file with its end, and what it says. -/
structure Row where
  line : List Char
  ending : List Char
  meaning : Line
  newline_not_mem : '\n' ∉ line
  ending_eq : ending = ['\n'] ∨ ending = ['\r', '\n']
  written : Says line meaning

namespace Row

/-- The text of a row. -/
def text (row : Row) : List Char := row.line ++ row.ending

/-- The key and the value of an entry. -/
def entry? (row : Row) : Option (String × String) :=
  match row.meaning with
  | .entry key value => some (String.ofList key, String.ofList value)
  | _ => none

/-- The report of an invalid row. -/
def report? (row : Row) (number : Nat) : Option (Nat × String) :=
  match row.meaning with
  | .invalid text => some (number, String.ofList text)
  | _ => none

end Row

/-! ## One line -/

theorem isComment_iff {line : List Char} : IsComment line ↔ (trim line).head? = some '#' := by
  constructor
  · rintro ⟨blanks, text, hblanks, rfl⟩
    rw [head?_trim, trimStart, List.dropWhile_append_of_pos hblanks]
    rfl
  · intro h
    rw [head?_trim] at h
    obtain ⟨text, hstart⟩ := List.head?_eq_some_iff.1 h
    refine ⟨line.takeWhile isBlank, text, List.all_eq_true.1 List.all_takeWhile, ?_⟩
    rw [← hstart, trimStart_append]

theorem mem_of_mem_dropExport {text : List Char} {c : Char} (h : c ∈ dropExport text) :
    c ∈ text := by
  rw [dropExport] at h
  cases hstrip : stripPrefix? exportMark text with
  | none =>
    rw [hstrip] at h
    exact h
  | some rest =>
    rw [hstrip] at h
    rw [eq_append_of_stripPrefix? hstrip]
    exact List.mem_append.2 (.inr h)

/-- A value between two equal quotes. -/
theorem unquote_quoted {quote : Char} (h : quote = '"' ∨ quote = '\'') (value : List Char) :
    unquote (quote :: value ++ [quote]) = value := by
  simp [unquote, h]

/-- What follows a key is cut off at the first equals sign, whether the word stands in front of the
key or not. -/
theorem cutChar?_dropExport {lead key : List Char} (hlead : IsLead lead) (hkey : IsKey key)
    (rest : List Char) : ∃ blanks, (∀ c ∈ blanks, isBlank c) ∧
      cutChar? '=' (dropExport (lead ++ key ++ '=' :: rest)) = some (blanks ++ key, rest) := by
  rcases hlead with rfl | ⟨blanks, hblanks, rfl⟩
  · refine ⟨[], by simp, ?_⟩
    have hmark : '=' ∉ exportMark := by decide
    have hnone : stripPrefix? exportMark (key ++ '=' :: rest) = none := by
      rw [← Option.not_isSome_iff_eq_none, ← startsWith, startsWith_eq_true_iff,
        prefix_append_cons_iff hmark]
      exact hkey.not_export
    rw [List.nil_append, dropExport, hnone]
    exact cutChar?_append hkey.equals_not_mem rest
  · refine ⟨blanks, hblanks, ?_⟩
    have hnot : '=' ∉ blanks ++ key := by
      intro hmem
      rcases List.mem_append.1 hmem with hmem | hmem
      · exact absurd (hblanks '=' hmem) (by decide)
      · exact hkey.equals_not_mem hmem
    rw [List.append_assoc, List.append_assoc, dropExport, stripPrefix?_append, ← List.append_assoc]
    exact cutChar?_append hnot rest

/-- The first character of an entry is no blank and no number sign. -/
theorem head_of_entry {lead key : List Char} (hlead : IsLead lead) (hkey : IsKey key)
    (rest : List Char) :
    ∀ c ∈ (lead ++ key ++ '=' :: rest).head?, isBlank c = false ∧ c ≠ '#' := by
  intro c hc
  rcases hlead with rfl | ⟨blanks, -, rfl⟩
  · cases key with
    | nil =>
      obtain rfl : '=' = c := by simpa using hc
      decide
    | cons d key =>
      obtain rfl : d = c := by simpa using hc
      exact ⟨(trim_eq_iff.1 hkey.trimmed).2.1 d rfl, hkey.not_comment d rfl⟩
  · obtain rfl : 'e' = c := by simpa [exportMark] using hc
    decide

theorem readLine_of_trim {line text : List Char} (h : trim line = text) (hne : text ≠ [])
    (hcomment : text.head? ≠ some '#') : readLine line =
      match cutChar? '=' (dropExport text) with
      | none => .invalid (dropExport text)
      | some (key, value) => .entry (trim key) (unquote (trim value)) := by
  unfold readLine
  rw [h]
  split
  next => exact absurd rfl hne
  next => exact absurd rfl hcomment
  next => rfl

theorem readLine_entry {before after lead key value : List Char} {quote : Char}
    (hbefore : ∀ c ∈ before, isBlank c) (hafter : ∀ c ∈ after, isBlank c) (hlead : IsLead lead)
    (hkey : IsKey key) (hquote : quote = '"' ∨ quote = '\'') :
    readLine (before ++ (lead ++ key ++ '=' :: quote :: value ++ [quote]) ++ after) =
      .entry key value := by
  have hblank : isBlank quote = false := by
    rcases hquote with rfl | rfl <;> rfl
  have hhead := head_of_entry hlead hkey (quote :: value ++ [quote])
  have htrim : trim (before ++ (lead ++ key ++ '=' :: quote :: value ++ [quote]) ++ after) =
      lead ++ key ++ '=' :: (quote :: value ++ [quote]) := by
    rw [trim_append_blanks hafter, trim_blanks_append hbefore]
    refine (trim_eq_self ?_ ?_).trans (by simp)
    · intro c hc
      exact (hhead c (by simpa using hc)).1
    · intro c hc
      rw [List.getLast?_concat] at hc
      exact Option.some.inj hc ▸ hblank
  have hcomment : (lead ++ key ++ '=' :: (quote :: value ++ [quote])).head? ≠ some '#' := by
    intro h
    exact (hhead '#' h).2 rfl
  obtain ⟨blanks, hblanks, hcut⟩ := cutChar?_dropExport hlead hkey (quote :: value ++ [quote])
  have hvalue : trim (quote :: value ++ [quote]) = quote :: value ++ [quote] := by
    refine trim_eq_self ?_ ?_
    · intro c hc
      obtain rfl : quote = c := by simpa using hc
      exact hblank
    · intro c hc
      rw [List.getLast?_concat] at hc
      exact Option.some.inj hc ▸ hblank
  rw [readLine_of_trim htrim (by simp) hcomment, hcut]
  show Line.entry (trim (blanks ++ key)) (unquote (trim (quote :: value ++ [quote]))) = _
  rw [trim_blanks_append hblanks, hkey.trimmed, hvalue, unquote_quoted hquote]

/-- A line is read as what it says. -/
theorem Says.readLine_eq {line : List Char} {said : Line} (h : Says line said) :
    readLine line = said := by
  cases h with
  | blank hblank =>
    unfold readLine
    rw [trim_eq_nil_iff.2 hblank]
  | comment hcomment =>
    obtain ⟨text, htrim⟩ := List.head?_eq_some_iff.1 (isComment_iff.1 hcomment)
    unfold readLine
    rw [htrim]
    rfl
  | entry hbefore hafter hlead hkey hquote =>
    exact readLine_entry hbefore hafter hlead hkey hquote
  | invalid hblank hcomment hequals =>
    have hnot : '=' ∉ dropExport (trim line) := fun hmem =>
      hequals ((isInfix_trim line).subset (mem_of_mem_dropExport hmem))
    rw [readLine_of_trim rfl (fun hnil => hblank (trim_eq_nil_iff.1 hnil))
      (fun hhead => hcomment (isComment_iff.2 hhead)), cutChar?_eq_none hnot]

/-! ## All lines -/

theorem trim_dropLineEnd (line : List Char) : trim (dropLineEnd line) = trim line := by
  have hend : ∃ back, (∀ c ∈ back, isBlank c) ∧ line = dropLineEnd line ++ back := by
    unfold dropLineEnd
    split
    next r hreverse =>
      refine ⟨['\r', '\n'], by simp [isBlank], ?_⟩
      rw [← List.reverse_reverse line, hreverse]
      simp
    next r hreverse =>
      refine ⟨['\n'], by simp [isBlank], ?_⟩
      rw [← List.reverse_reverse line, hreverse]
      simp
    next => exact ⟨[], by simp, by simp⟩
  obtain ⟨back, hback, hline⟩ := hend
  conv => rhs; rw [hline]
  rw [trim_append_blanks hback]

/-- The end of a line does not change what is read of it. -/
theorem Row.readLine_eq (row : Row) : readLine (dropLineEnd row.text) = row.meaning := by
  have hending : ∀ c ∈ row.ending, isBlank c := by
    rcases row.ending_eq with h | h <;> rw [h] <;> simp [isBlank]
  have htrim : trim (dropLineEnd row.text) = trim row.line := by
    rw [trim_dropLineEnd, Row.text, trim_append_blanks hending]
  rw [← row.written.readLine_eq]
  unfold readLine
  rw [htrim]

theorem splitLines_rows (rows : List Row) :
    splitLines (rows.flatMap Row.text) = rows.map Row.text := by
  induction rows with
  | nil => rfl
  | cons row rows ih =>
    have hcut : ∃ body, '\n' ∉ body ∧ row.text = body ++ ['\n'] := by
      rcases row.ending_eq with h | h
      · exact ⟨row.line, row.newline_not_mem, by rw [Row.text, h]⟩
      · refine ⟨row.line ++ ['\r'], ?_, by simp [Row.text, h]⟩
        simp [row.newline_not_mem]
    obtain ⟨body, hbody, htext⟩ := hcut
    rw [List.flatMap_cons, List.map_cons, ← ih, htext, List.append_assoc, List.singleton_append,
      splitLines_append hbody]

/-- Rows are read one after the other: an entry sets the value of its key, and an invalid row is
reported in front of those behind it. -/
theorem readLines_rows (number : Nat) (values : Dict String) (rows : List Row) :
    (readLines number values (rows.map fun row => dropLineEnd row.text)).values =
        values.insertAll (rows.filterMap Row.entry?) ∧
      (readLines number values (rows.map fun row => dropLineEnd row.text)).invalid =
        (rows.zipIdx number).filterMap fun (row, number) => row.report? number := by
  induction rows generalizing number values with
  | nil => exact ⟨rfl, rfl⟩
  | cons row rows ih =>
    have hread := row.readLine_eq
    rw [List.map_cons, readLines, hread, List.zipIdx_cons]
    cases hmeaning : row.meaning with
    | nothing => simpa [Row.entry?, Row.report?, hmeaning] using ih (number + 1) values
    | entry key value =>
      simpa [Row.entry?, Row.report?, hmeaning] using
        ih (number + 1) (values.insert (String.ofList key) (String.ofList value))
    | invalid text => simpa [Row.entry?, Row.report?, hmeaning] using ih (number + 1) values

/-- The rows of a file are read back: the value of a key is that of the last entry with the key,
and exactly the invalid rows are reported, in order, each with its number from one. -/
theorem read_rows (rows : List Row) :
    let settings := read (String.ofList (rows.flatMap Row.text))
    (∀ key value, settings.values.get? key = some value ↔ ∃ before after,
      rows.filterMap Row.entry? = before ++ (key, value) :: after ∧ ∀ e ∈ after, e.1 ≠ key) ∧
    settings.invalid = (rows.zipIdx 1).filterMap fun (row, number) => row.report? number := by
  intro settings
  have hsettings : settings = readLines 1 .empty (rows.map fun row => dropLineEnd row.text) := by
    show readLines 1 .empty (lines (String.ofList (rows.flatMap Row.text)).toList) = _
    rw [String.toList_ofList, lines, splitLines_rows, List.map_map]
    rfl
  obtain ⟨hvalues, hinvalid⟩ := readLines_rows 1 .empty rows
  rw [hsettings]
  refine ⟨?_, hinvalid⟩
  intro key value
  rw [hvalues]
  exact Dict.get?_ofList_eq_some_iff

/-- A key with two entries, quotes and an equals sign in values, and an invalid line behind a blank
one. -/
theorem read_rows_repeated_key :
    let text := "\t\nexport K=\"a=\"b\" \r\n export none\nK='it's'\n"
    (∃ rows : List Row, rows.flatMap Row.text = text.toList) ∧
      (read text).values.get? "K" = some "it's" ∧ (read text).invalid = [(3, "none")] := by
  intro text
  have hkey : IsKey ['K'] := ⟨by decide, by simp, by simp, by decide⟩
  have hlead : IsLead exportMark := .inr ⟨[], by simp, by simp⟩
  have hbehind : ∀ c ∈ [' '], isBlank c := by simp [isBlank]
  have hfirst : Says ([] ++ (exportMark ++ ['K'] ++ '=' :: '"' :: "a=\"b".toList ++ ['"']) ++ [' '])
      (.entry ['K'] "a=\"b".toList) :=
    .entry (List.forall_mem_nil _) hbehind hlead hkey (.inl rfl)
  have hlast : Says ([] ++ ([] ++ ['K'] ++ '=' :: '\'' :: "it's".toList ++ ['\'']) ++ [])
      (.entry ['K'] "it's".toList) :=
    .entry (List.forall_mem_nil _) (List.forall_mem_nil _) (.inl rfl) hkey (.inr rfl)
  have hinvalid : Says " export none".toList (.invalid "none".toList) := by
    refine .invalid (by simp [isBlank]) ?_ (by simp)
    rw [isComment_iff]
    decide
  let rows : List Row :=
    [⟨['\t'], ['\n'], .nothing, by simp, .inl rfl, .blank (by simp [isBlank])⟩,
      ⟨_, ['\r', '\n'], _, by simp [exportMark], .inr rfl, hfirst⟩,
      ⟨_, ['\n'], _, by simp, .inl rfl, hinvalid⟩, ⟨_, ['\n'], _, by simp, .inl rfl, hlast⟩]
  have htext : rows.flatMap Row.text = text.toList := by simp [rows, text, Row.text, exportMark]
  obtain ⟨hvalues, hreports⟩ := read_rows rows
  rw [htext, String.ofList_toList] at hvalues hreports
  exact ⟨⟨rows, htext⟩, (hvalues "K" "it's").2 ⟨[("K", "a=\"b")], [], rfl, by simp⟩, hreports⟩

end Stencil.Dotenv
