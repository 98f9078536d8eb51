import Mathlib.Data.List.Basic
import Mathlib.Data.List.Induction
import Stencil.UserInput

/-!
# What detection finds

The marks of a content, read from left to right, decide what `detect` lists: one pattern for each
name, in the order of the first marks, with the text and the place of the first mark; the pattern
is secret if any of the marks is (`detect_eq`). Reading one more mark changes the list as `note`
does (`note_patterns`), which carries the induction over the pieces.
-/

namespace Stencil.UserInput

open Text

/-- The name of a mark as a text. -/
def Mark.label (m : Mark) : String := String.ofList m.name

/-- The marks among some pieces, each with the place in bytes where it begins. -/
def placedFrom (position : Nat) : List (Piece Mark) → List (Nat × Mark)
  | [] => []
  | .char c :: rest => placedFrom (position + c.utf8Size) rest
  | .span m :: rest => (position, m) :: placedFrom (position + byteLength m.write) rest

/-- The marks of a content with their places. -/
def placed (content : String) : List (Nat × Mark) :=
  placedFrom 0 (marker.pieces content.toList)

/-- The marks of a content from left to right. -/
def marks (content : String) : List Mark := marker.spans content.toList

/-- The names of a content, each once, in the order of their first marks. -/
def names (content : String) : List String := ((marks content).map Mark.label).eraseDups

/-- Whether any of the marks with a name is secret. -/
def isSecret (ms : List Mark) (name : String) : Bool :=
  ms.any fun m => m.label == name && m.secret

/-- The pattern of a name among placed marks: the first mark with the name, and the secrecy of all
of them. -/
def pattern? (ms : List (Nat × Mark)) (name : String) : Option Pattern :=
  (ms.find? fun m => m.2.label == name).map fun m =>
    ⟨name, String.ofList m.2.write, m.1, isSecret (ms.map (·.2)) name⟩

/-- The patterns of placed marks. -/
def patterns (ms : List (Nat × Mark)) : List Pattern :=
  (ms.map (·.2.label)).eraseDups.filterMap (pattern? ms)

theorem map_snd_placed (content : String) : (placed content).map (·.2) = marks content := by
  unfold placed marks Marker.spans
  generalize marker.pieces content.toList = ps
  generalize 0 = position
  induction ps generalizing position with
  | nil => rfl
  | cons p ps ih =>
    cases p with
    | char c => simp [placedFrom, ih]
    | span m => simp [placedFrom, ih]

theorem map_label_placed (content : String) :
    (placed content).map (·.2.label) = (marks content).map Mark.label := by
  rw [← map_snd_placed, List.map_map]
  rfl

theorem eraseDups_concat (labels : List String) (label : String) :
    (labels ++ [label]).eraseDups =
      if label ∈ labels then labels.eraseDups else labels.eraseDups ++ [label] := by
  rw [List.eraseDups_append]
  by_cases seen : label ∈ labels
  · simp [List.removeAll, seen]
  · simp [List.removeAll, seen, List.eraseDups_cons]

theorem nodup_names (content : String) : (names content).Nodup := by
  unfold names
  generalize (marks content).map Mark.label = labels
  induction labels using List.reverseRecOn with
  | nil => exact List.nodup_nil
  | append_singleton labels label ih =>
    rw [eraseDups_concat]
    split
    · exact ih
    next fresh =>
      refine List.nodup_append.2 ⟨ih, List.pairwise_singleton _ _, ?_⟩
      intro a ha b hb heq
      obtain rfl := List.mem_singleton.1 hb
      exact fresh (List.mem_eraseDups.1 (heq ▸ ha))

/-! ## One more mark -/

section Note

variable {ms : List (Nat × Mark)} {name : String}

theorem isSecret_append (ms ms' : List Mark) (name : String) :
    isSecret (ms ++ ms') name = (isSecret ms name || isSecret ms' name) := by
  simp [isSecret]

theorem pattern?_isSome (h : name ∈ ms.map (·.2.label)) : ∃ p, pattern? ms name = some p := by
  obtain ⟨m, hm, rfl⟩ := List.mem_map.1 h
  refine Option.isSome_iff_exists.1 ?_
  rw [pattern?, Option.isSome_map, List.find?_isSome]
  exact ⟨m, hm, by simp⟩

theorem name_of_pattern? {p : Pattern} (h : pattern? ms name = some p) : p.name = name := by
  obtain ⟨m, -, rfl⟩ := Option.map_eq_some_iff.1 h
  rfl

theorem pattern?_of_not_mem (h : name ∉ ms.map (·.2.label)) : pattern? ms name = none := by
  rw [pattern?, Option.map_eq_none_iff, List.find?_eq_none]
  intro m hm heq
  exact h (List.mem_map.2 ⟨m, hm, by simpa using heq⟩)

/-- The names of the patterns are those of the marks: none is lost. -/
theorem map_name_patterns (ms : List (Nat × Mark)) :
    (patterns ms).map (·.name) = (ms.map (·.2.label)).eraseDups := by
  have key : ∀ labels : List String, (∀ l ∈ labels, l ∈ ms.map (·.2.label)) →
      (labels.filterMap (pattern? ms)).map (·.name) = labels := by
    intro labels
    induction labels with
    | nil => intro _; rfl
    | cons l labels ih =>
      intro h
      obtain ⟨p, hp⟩ := pattern?_isSome (h l List.mem_cons_self)
      simp [hp, name_of_pattern? hp, ih fun l' hl' => h l' (List.mem_cons_of_mem _ hl')]
  exact key _ fun l hl => List.mem_eraseDups.1 hl

/-- A further mark leaves the first mark of a name that was met before, and may make it secret. -/
theorem pattern?_append_of_mem (h : name ∈ ms.map (·.2.label)) (position : Nat) (m : Mark) :
    pattern? (ms ++ [(position, m)]) name = (pattern? ms name).map fun p =>
      if p.name = m.label then { p with secret := p.secret || m.secret } else p := by
  obtain ⟨p, hp⟩ := pattern?_isSome h
  obtain ⟨first, hfirst, rfl⟩ := Option.map_eq_some_iff.1 hp
  rw [hp]
  simp only [pattern?, List.find?_append, hfirst, Option.some_or, Option.map_some, List.map_append,
    isSecret_append]
  by_cases hname : name = m.label
  · simp [isSecret, hname]
  · simp [isSecret, hname, Ne.symm hname]

/-- A further mark with another name says nothing about a name. -/
theorem pattern?_append_of_ne {m : Mark} (h : m.label ≠ name) (position : Nat) :
    pattern? (ms ++ [(position, m)]) name = pattern? ms name := by
  have plain : isSecret ((ms ++ [(position, m)]).map (·.2)) name =
      isSecret (ms.map (·.2)) name := by
    simp [isSecret, h]
  simp only [pattern?, plain]
  simp [List.find?_append, h]

theorem pattern?_append_of_not_mem {m : Mark} (h : m.label ∉ ms.map (·.2.label))
    (position : Nat) :
    pattern? (ms ++ [(position, m)]) m.label =
      some ⟨m.label, String.ofList m.write, position, m.secret⟩ := by
  have none : ms.find? (fun m' => m'.2.label == m.label) = none :=
    Option.map_eq_none_iff.1 (pattern?_of_not_mem h)
  have plain : isSecret (ms.map (·.2)) m.label = false := by
    rw [isSecret, List.any_eq_false]
    intro m' hm' hboth
    obtain ⟨placed, hplaced, rfl⟩ := List.mem_map.1 hm'
    exact h (List.mem_map.2 ⟨placed, hplaced, by simpa using (Bool.and_eq_true_iff.1 hboth).1⟩)
  simp only [pattern?, List.find?_append, none, Option.none_or, List.map_append, isSecret_append,
    plain]
  simp [isSecret]

theorem note_patterns (ms : List (Nat × Mark)) (position : Nat) (m : Mark) :
    note (patterns ms) position m = patterns (ms ++ [(position, m)]) := by
  have known : ((patterns ms).any fun p => p.name = m.label) = true ↔
      m.label ∈ ms.map (·.2.label) := by
    rw [← List.mem_eraseDups, ← map_name_patterns]
    simp
  have labels : (ms ++ [(position, m)]).map (·.2.label) = ms.map (·.2.label) ++ [m.label] := by
    simp
  unfold note
  simp only [show String.ofList m.name = m.label from rfl]
  by_cases seen : m.label ∈ ms.map (·.2.label)
  · -- The name has its pattern already; the mark only adds its secrecy to it.
    rw [if_pos (known.2 seen), patterns, List.map_filterMap, patterns, labels, eraseDups_concat,
      if_pos seen]
    refine List.filterMap_congr fun name hname => ?_
    exact (pattern?_append_of_mem (List.mem_eraseDups.1 hname) position m).symm
  · rw [if_neg (mt known.1 seen), patterns, patterns, labels, eraseDups_concat, if_neg seen,
      List.filterMap_append]
    congr 1
    · refine List.filterMap_congr fun name hname => ?_
      have hne : m.label ≠ name := fun heq => seen (heq ▸ List.mem_eraseDups.1 hname)
      exact (pattern?_append_of_ne hne position).symm
    · simp [pattern?_append_of_not_mem seen]

end Note

/-! ## All marks -/

theorem detectFrom_eq (position : Nat) (ms : List (Nat × Mark)) (ps : List (Piece Mark)) :
    detectFrom position (patterns ms) ps = patterns (ms ++ placedFrom position ps) := by
  induction ps generalizing position ms with
  | nil => simp [detectFrom, placedFrom]
  | cons p ps ih =>
    cases p with
    | char c =>
      rw [detectFrom, placedFrom]
      exact ih _ ms
    | span m =>
      rw [detectFrom, placedFrom, note_patterns, ih, List.append_assoc]
      rfl

theorem detect_eq (content : String) : detect content = patterns (placed content) :=
  detectFrom_eq 0 [] _

theorem map_name_detect (content : String) : (detect content).map (·.name) = names content := by
  rw [detect_eq, map_name_patterns, map_label_placed, names]

theorem name_mem_names {content : String} {p : Pattern} (h : p ∈ detect content) :
    p.name ∈ names content := by
  rw [← map_name_detect]
  exact List.mem_map_of_mem h

theorem secret_of_mem_detect {content : String} {p : Pattern} (h : p ∈ detect content) :
    p.secret = isSecret (marks content) p.name := by
  rw [detect_eq] at h
  obtain ⟨name, -, hp⟩ := List.mem_filterMap.1 h
  obtain ⟨m, -, rfl⟩ := Option.map_eq_some_iff.1 hp
  rw [← map_snd_placed]

theorem written_of_mem_detect {content : String} {p : Pattern} (h : p ∈ detect content) :
    ∃ m, (marks content).find? (fun m => m.label == p.name) = some m ∧
      p.written = String.ofList m.write := by
  rw [detect_eq] at h
  obtain ⟨name, -, hp⟩ := List.mem_filterMap.1 h
  obtain ⟨m, hm, rfl⟩ := Option.map_eq_some_iff.1 hp
  refine ⟨m.2, ?_, rfl⟩
  rw [← map_snd_placed, List.find?_map]
  exact congrArg (Option.map (·.2)) hm

end Stencil.UserInput
