/-!
# Searching a text

`stripPrefix?` takes a fixed text off the front, `cut?` splits a text around the first occurrence
of a fixed text, `splitOn` around every occurrence of a character. The main statements say that
the parts, put together again, are the text (`eq_append_of_stripPrefix?`, `eq_append_of_cut?`),
and that splitting at a character undoes joining and is undone by it (`splitAtChar_eq_iff`).
-/

namespace Stencil.Text

/-- What follows `front` in a text that starts with it. -/
def stripPrefix? : (front cs : List Char) → Option (List Char)
  | [], cs => some cs
  | _ :: _, [] => none
  | p :: front, c :: cs => if p = c then stripPrefix? front cs else none

/-- Whether a text starts with `front`. -/
def startsWith (front cs : List Char) : Bool := (stripPrefix? front cs).isSome

/-- The text before and the text behind the first occurrence of `mark`. -/
def cut? (mark : List Char) : List Char → Option (List Char × List Char)
  | [] => if mark.isEmpty then some ([], []) else none
  | c :: cs =>
    match stripPrefix? mark (c :: cs) with
    | some rest => some ([], rest)
    | none => (cut? mark cs).map fun (before, after) => (c :: before, after)

/-- Whether `mark` occurs in a text. -/
def occurs (mark cs : List Char) : Bool := (cut? mark cs).isSome

/-- The text before and the text behind the first `d`. -/
def cutChar? (d : Char) : List Char → Option (List Char × List Char)
  | [] => none
  | c :: cs =>
    if c = d then some ([], cs)
    else (cutChar? d cs).map fun (before, after) => (c :: before, after)

/-- The text before and the text behind the last `d`. -/
def cutLastChar? (d : Char) (cs : List Char) : Option (List Char × List Char) :=
  (cutChar? d cs.reverse).map fun (after, before) => (before.reverse, after.reverse)

/-- The parts of a text between the occurrences of `d`; there is always at least one. -/
def splitAtChar (d : Char) : List Char → List (List Char)
  | [] => [[]]
  | c :: cs =>
    if c = d then [] :: splitAtChar d cs
    else match splitAtChar d cs with
      | [] => [[c]]
      | part :: parts => (c :: part) :: parts

/-- A stripped text is the prefix and what follows it. -/
theorem eq_append_of_stripPrefix? {front cs rest : List Char}
    (h : stripPrefix? front cs = some rest) : cs = front ++ rest := by
  induction front generalizing cs with
  | nil => simpa [stripPrefix?] using h
  | cons p front ih =>
    cases cs with
    | nil => simp [stripPrefix?] at h
    | cons c cs =>
      by_cases hp : p = c
      · simp only [stripPrefix?, hp, if_true] at h
        simp [hp, ih h]
      · simp [stripPrefix?, hp] at h

/-- A prefix can always be stripped. -/
@[simp] theorem stripPrefix?_append (front rest : List Char) :
    stripPrefix? front (front ++ rest) = some rest := by
  induction front with
  | nil => rfl
  | cons p front ih => simp [stripPrefix?, ih]

theorem startsWith_eq_true_iff {front cs : List Char} :
    startsWith front cs = true ↔ front <+: cs := by
  rw [startsWith, Option.isSome_iff_exists]
  constructor
  · intro ⟨rest, h⟩
    exact ⟨rest, (eq_append_of_stripPrefix? h).symm⟩
  · intro ⟨rest, h⟩
    exact ⟨rest, by rw [← h, stripPrefix?_append]⟩

/-- Whether a text begins another is settled in front of a character that it does not hold. -/
theorem prefix_append_cons_iff {front cs rest : List Char} {c : Char} (h : c ∉ front) :
    front <+: cs ++ c :: rest ↔ front <+: cs := by
  constructor
  · intro hfront
    rcases List.prefix_or_prefix_of_prefix hfront (List.prefix_append cs _) with hshort | hlong
    · exact hshort
    · obtain ⟨tail, rfl⟩ := hlong
      obtain ⟨more, hmore⟩ := hfront
      rw [List.append_assoc] at hmore
      cases tail with
      | nil => simp
      | cons d tail =>
        obtain rfl : d = c := (List.cons.inj (List.append_cancel_left hmore)).1
        exact absurd (by simp) h
  · intro hfront
    exact hfront.trans (List.prefix_append cs _)

/-- The two parts of a cut, with the mark between them, are the text. -/
theorem eq_append_of_cut? {mark cs before after : List Char}
    (h : cut? mark cs = some (before, after)) : cs = before ++ mark ++ after := by
  induction cs generalizing before with
  | nil =>
    by_cases hm : mark.isEmpty
    · simp only [cut?, hm, if_true, Option.some.injEq, Prod.mk.injEq] at h
      simp [← h.1, ← h.2, List.isEmpty_iff.1 hm]
    · simp [cut?, hm] at h
  | cons c cs ih =>
    cases hs : stripPrefix? mark (c :: cs) with
    | some rest =>
      simp only [cut?, hs, Option.some.injEq, Prod.mk.injEq] at h
      simp [← h.1, ← h.2, eq_append_of_stripPrefix? hs]
    | none =>
      simp only [cut?, hs, Option.map_eq_some_iff, Prod.mk.injEq] at h
      obtain ⟨⟨b, a⟩, hcut, rfl, rfl⟩ := h
      simpa using congrArg (c :: ·) (ih hcut)

/-- A mark occurs in a text if the text starts with it or if it occurs behind the first character. -/
theorem occurs_cons (mark : List Char) (c : Char) (cs : List Char) :
    occurs mark (c :: cs) = (startsWith mark (c :: cs) || occurs mark cs) := by
  rw [occurs, cut?]
  cases h : stripPrefix? mark (c :: cs) with
  | some rest => simp [startsWith, h]
  | none => simp [startsWith, occurs, h]

/-- A mark occurs wherever it stands in a text. -/
theorem occurs_append (mark front rest : List Char) :
    occurs mark (front ++ (mark ++ rest)) = true := by
  induction front with
  | nil =>
    have hstarts : startsWith mark (mark ++ rest) = true :=
      startsWith_eq_true_iff.2 (List.prefix_append mark rest)
    rw [List.nil_append]
    cases hcs : mark ++ rest with
    | nil =>
      rw [(List.append_eq_nil_iff.1 hcs).1]
      rfl
    | cons c cs =>
      rw [hcs] at hstarts
      rw [occurs_cons, hstarts, Bool.true_or]
  | cons c front ih => rw [List.cons_append, occurs_cons, ih, Bool.or_true]

/-- The two parts of a cut at a character, with it between them, are the text. -/
theorem eq_append_of_cutChar? {d : Char} {cs before after : List Char}
    (h : cutChar? d cs = some (before, after)) : cs = before ++ d :: after ∧ d ∉ before := by
  induction cs generalizing before with
  | nil => simp [cutChar?] at h
  | cons c cs ih =>
    by_cases hc : c = d
    · simp only [cutChar?, hc, if_true, Option.some.injEq, Prod.mk.injEq] at h
      simp [← h.1, ← h.2, hc]
    · simp only [cutChar?, hc, if_false, Option.map_eq_some_iff, Prod.mk.injEq] at h
      obtain ⟨⟨b, a⟩, hcut, rfl, rfl⟩ := h
      obtain ⟨h1, h2⟩ := ih hcut
      exact ⟨by simp [h1], by simp [Ne.symm hc, h2]⟩

/-- The first occurrence of a character is behind the text that does not hold it. -/
theorem cutChar?_append {d : Char} {before : List Char} (h : d ∉ before) (after : List Char) :
    cutChar? d (before ++ d :: after) = some (before, after) := by
  induction before with
  | nil => simp [cutChar?]
  | cons c before ih =>
    obtain ⟨hc, hbefore⟩ := not_or.1 (mt List.mem_cons.2 h)
    simp [cutChar?, Ne.symm hc, ih hbefore]

/-- A text in front that does not hold the character makes the first part longer. -/
theorem cutChar?_append_left {d : Char} {front : List Char} (h : d ∉ front) (cs : List Char) :
    cutChar? d (front ++ cs) =
      (cutChar? d cs).map fun (before, after) => (front ++ before, after) := by
  cases hcut : cutChar? d cs with
  | some parts =>
    obtain ⟨before, after⟩ := parts
    obtain ⟨rfl, hbefore⟩ := eq_append_of_cutChar? hcut
    have hfront : d ∉ front ++ before := by simp [h, hbefore]
    rw [← List.append_assoc]
    exact cutChar?_append hfront after
  | none =>
    induction front with
    | nil => exact hcut
    | cons c front ih =>
      obtain ⟨hc, hfront⟩ := not_or.1 (mt List.mem_cons.2 h)
      simp [cutChar?, Ne.symm hc, ih hfront]

/-- A text is cut at each of its characters. -/
theorem cutChar?_eq_none {d : Char} {cs : List Char} (h : d ∉ cs) : cutChar? d cs = none := by
  cases hcut : cutChar? d cs with
  | none => rfl
  | some parts =>
    obtain ⟨heq, -⟩ := eq_append_of_cutChar? hcut
    exact absurd (by simp [heq]) h

/-- A text that is not cut at a character does not hold it. -/
theorem not_mem_of_cutChar?_eq_none {d : Char} {cs : List Char} (h : cutChar? d cs = none) :
    d ∉ cs := by
  intro hmem
  obtain ⟨before, after, rfl, hbefore⟩ := List.eq_append_cons_of_mem hmem
  rw [cutChar?_append hbefore] at h
  cases h

/-- The first occurrence of a mark is behind the text that does not hold its first character. -/
theorem cut?_append {d : Char} {before : List Char} (h : d ∉ before) (mark after : List Char) :
    cut? (d :: mark) (before ++ d :: (mark ++ after)) = some (before, after) := by
  induction before with
  | nil =>
    have hstrip := stripPrefix?_append (d :: mark) after
    simp only [List.cons_append] at hstrip
    simp [cut?, hstrip]
  | cons c before ih =>
    obtain ⟨hc, hbefore⟩ := not_or.1 (mt List.mem_cons.2 h)
    simp [cut?, stripPrefix?, hc, ih hbefore]

/-- The last occurrence of a character is in front of the text that does not hold it. -/
theorem cutLastChar?_append {d : Char} {after : List Char} (h : d ∉ after) (before : List Char) :
    cutLastChar? d (before ++ d :: after) = some (before, after) := by
  have hreverse : (before ++ d :: after).reverse = after.reverse ++ d :: before.reverse := by simp
  rw [cutLastChar?, hreverse, cutChar?_append (fun hmem => h (List.mem_reverse.1 hmem))]
  simp

/-- Only a text that holds the character is cut at its last occurrence. -/
theorem cutLastChar?_eq_none {d : Char} {cs : List Char} (h : d ∉ cs) :
    cutLastChar? d cs = none := by
  rw [cutLastChar?, cutChar?_eq_none (fun hmem => h (List.mem_reverse.1 hmem))]
  rfl

/-- A text that holds a character is cut at its last occurrence. -/
theorem exists_cutLastChar? {d : Char} {cs : List Char} (h : d ∈ cs) :
    ∃ before after, cs = before ++ d :: after ∧ d ∉ after ∧
      cutLastChar? d cs = some (before, after) := by
  obtain ⟨after, before, hreverse, hnot⟩ := List.eq_append_cons_of_mem (List.mem_reverse.2 h)
  have hcs : cs = before.reverse ++ d :: after.reverse := by
    simpa using congrArg List.reverse hreverse
  have hafter : d ∉ after.reverse := fun hmem => hnot (List.mem_reverse.1 hmem)
  refine ⟨before.reverse, after.reverse, hcs, hafter, ?_⟩
  rw [hcs]
  exact cutLastChar?_append hafter before.reverse

/-- The first part of a text up to a character holds a text in front that does not hold it. -/
theorem takeWhile_ne_append {d : Char} {front : List Char} (h : d ∉ front) (cs : List Char) :
    (front ++ cs).takeWhile (· ≠ d) = front ++ cs.takeWhile (· ≠ d) := by
  refine List.takeWhile_append_of_pos fun c hc => decide_eq_true ?_
  rintro rfl
  exact h hc

/-- What begins with a character stands behind a text in front that does not hold it. -/
theorem dropWhile_ne_append {d : Char} {front : List Char} (h : d ∉ front) (cs : List Char) :
    (front ++ cs).dropWhile (· ≠ d) = cs.dropWhile (· ≠ d) := by
  refine List.dropWhile_append_of_pos fun c hc => decide_eq_true ?_
  rintro rfl
  exact h hc

/-- A text is split at the character behind its first part. -/
theorem splitAtChar_append {d : Char} {part : List Char} (h : d ∉ part) (cs : List Char) :
    splitAtChar d (part ++ d :: cs) = part :: splitAtChar d cs := by
  induction part with
  | nil => simp [splitAtChar]
  | cons c part ih =>
    obtain ⟨hc, hpart⟩ := not_or.1 (mt List.mem_cons.2 h)
    simp [splitAtChar, Ne.symm hc, ih hpart]

/-- A text without the character is one part. -/
theorem splitAtChar_of_not_mem {d : Char} {part : List Char} (h : d ∉ part) :
    splitAtChar d part = [part] := by
  induction part with
  | nil => rfl
  | cons c part ih =>
    obtain ⟨hc, hpart⟩ := not_or.1 (mt List.mem_cons.2 h)
    simp [splitAtChar, Ne.symm hc, ih hpart]

/-- Splitting undoes joining. -/
theorem splitAtChar_intercalate {d : Char} {parts : List (List Char)} (hne : parts ≠ [])
    (h : ∀ part ∈ parts, d ∉ part) : splitAtChar d ([d].intercalate parts) = parts := by
  induction parts with
  | nil => exact absurd rfl hne
  | cons part parts ih =>
    obtain ⟨hpart, hparts⟩ := List.forall_mem_cons.1 h
    cases parts with
    | nil => simpa using splitAtChar_of_not_mem hpart
    | cons part' parts =>
      rw [List.intercalate_cons_cons, List.append_assoc, List.singleton_append,
        splitAtChar_append hpart, ih (by simp) hparts]

/-- A joined text begins as its first part does. -/
theorem head?_intercalate {part : List Char} (hne : part ≠ []) (d : Char)
    (parts : List (List Char)) : ([d].intercalate (part :: parts)).head? = part.head? := by
  obtain ⟨c, r, rfl⟩ := List.exists_cons_of_ne_nil hne
  cases parts with
  | nil => simp
  | cons part' parts => simp [List.intercalate_cons_cons]

theorem intercalate_ne_nil {part : List Char} (hne : part ≠ []) (d : Char)
    (parts : List (List Char)) : [d].intercalate (part :: parts) ≠ [] := by
  intro hnil
  have hhead := head?_intercalate hne d parts
  rw [hnil] at hhead
  exact hne (List.head?_eq_none_iff.1 hhead.symm)

/-- A joined text ends as its last part does. -/
theorem getLast?_intercalate {part : List Char} (hne : part ≠ []) (d : Char)
    {parts : List (List Char)} (h : part ∈ parts.getLast?) :
    ([d].intercalate parts).getLast? = part.getLast? := by
  induction parts with
  | nil => cases h
  | cons first parts ih =>
    cases parts with
    | nil =>
      obtain rfl : first = part := by simpa using h
      rw [List.intercalate_singleton]
    | cons next parts =>
      rw [List.getLast?_cons_cons] at h
      rw [List.intercalate_cons_cons, List.getLast?_append, ih h, Option.or_of_isSome]
      exact List.getLast?_isSome.2 hne

/-- Every text consists of parts without a character and that character between them. -/
theorem exists_intercalate_eq (d : Char) (cs : List Char) :
    ∃ parts, parts ≠ [] ∧ (∀ part ∈ parts, d ∉ part) ∧ [d].intercalate parts = cs := by
  induction cs with
  | nil => exact ⟨[[]], by simp, by simp, rfl⟩
  | cons c cs ih =>
    obtain ⟨parts, hne, hparts, rfl⟩ := ih
    obtain ⟨part, parts, rfl⟩ := List.exists_cons_of_ne_nil hne
    by_cases hc : c = d
    · refine ⟨[] :: part :: parts, by simp, by simpa using hparts, ?_⟩
      rw [List.intercalate_cons_cons, hc]
      rfl
    · obtain ⟨hpart, hrest⟩ := List.forall_mem_cons.1 hparts
      refine ⟨(c :: part) :: parts, by simp, ?_, List.intercalate_cons_cons_left⟩
      exact List.forall_mem_cons.2 ⟨by simp [Ne.symm hc, hpart], hrest⟩

/-- The parts of a text are the only ones that do not hold the character and, with it between
them, are the text. -/
theorem splitAtChar_eq_iff {d : Char} {cs : List Char} {parts : List (List Char)} :
    splitAtChar d cs = parts ↔
      parts ≠ [] ∧ (∀ part ∈ parts, d ∉ part) ∧ [d].intercalate parts = cs := by
  constructor
  · rintro rfl
    obtain ⟨parts, hne, hparts, rfl⟩ := exists_intercalate_eq d cs
    rw [splitAtChar_intercalate hne hparts]
    exact ⟨hne, hparts, rfl⟩
  · rintro ⟨hne, hparts, rfl⟩
    exact splitAtChar_intercalate hne hparts

end Stencil.Text
