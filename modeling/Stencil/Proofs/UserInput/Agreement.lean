import Stencil.Proofs.UserInput.Occurrences

/-!
# Detection and filling agree

Detecting, testing and filling read a content on their own, yet they see the same marks: those
that occur in it. What `detect` lists is described by `Describes`, in terms of occurrences only;
what `fill` writes by `Fills`, in terms of pieces that are cut at every occurrence. Filling asks
for the values of the detected names and of no others (`inputs_agree`).
-/

namespace Stencil.UserInput

open Text

/-! ## The detected patterns -/

/-- Some patterns are those of a content. -/
structure Describes (content : String) (ps : List Pattern) : Prop where
  distinct : (ps.map (·.name)).Nodup
  ascending : ps.Pairwise fun p q => p.position < q.position
  /-- Every mark is of a name that is listed. -/
  complete : ∀ {position m}, Occurs content position m → ∃ p ∈ ps, p.name = m.label
  /-- Every pattern tells where a mark of its name occurs, and how it is written there. -/
  occurs : ∀ p ∈ ps, ∃ m, Occurs content p.position m ∧ m.label = p.name ∧
    p.written = String.ofList m.write
  /-- No mark of the name occurs before that. -/
  first : ∀ p ∈ ps, ∀ {position m}, Occurs content position m → m.label = p.name →
    p.position ≤ position
  secret_iff : ∀ p ∈ ps, p.secret = true ↔
    ∃ position m, Occurs content position m ∧ m.label = p.name ∧ m.secret = true

section

variable {ms : List (Nat × Mark)} {p : Pattern}

theorem exists_find?_of_mem_patterns (h : p ∈ patterns ms) :
    ∃ m, ms.find? (fun m => m.2.label == p.name) = some (p.position, m) ∧
      p.written = String.ofList m.write := by
  obtain ⟨name, -, hp⟩ := List.mem_filterMap.1 h
  obtain ⟨⟨position, m⟩, hfind, rfl⟩ := Option.map_eq_some_iff.1 hp
  exact ⟨m, hfind, rfl⟩

theorem exists_mem_of_mem_patterns (h : p ∈ patterns ms) :
    ∃ m, (p.position, m) ∈ ms ∧ m.label = p.name ∧ p.written = String.ofList m.write := by
  obtain ⟨m, hfind, hwritten⟩ := exists_find?_of_mem_patterns h
  have hlabel := List.find?_some hfind
  exact ⟨m, List.mem_of_find?_eq_some hfind, by simpa using hlabel, hwritten⟩

/-- The patterns of marks in ascending order ascend: one more mark either changes the secrecy of a
pattern or adds one at its own place. -/
theorem pairwise_patterns (h : ms.Pairwise fun a b => a.1 < b.1) :
    (patterns ms).Pairwise fun p q => p.position < q.position := by
  induction ms using List.reverseRecOn with
  | nil => exact List.Pairwise.nil
  | append_singleton ms entry ih =>
      obtain ⟨position, m⟩ := entry
      obtain ⟨hms, -, hlast⟩ := List.pairwise_append.1 h
      rw [← note_patterns, note]
      split
      · refine List.pairwise_map.2 ((ih hms).imp ?_)
        intro p q hpq
        split <;> split <;> exact hpq
      · refine List.pairwise_append.2 ⟨ih hms, List.pairwise_singleton _ _, ?_⟩
        intro p hp q hq
        obtain rfl := List.mem_singleton.1 hq
        obtain ⟨first, hfirst, -⟩ := exists_mem_of_mem_patterns hp
        exact hlast _ hfirst _ (List.mem_singleton.2 rfl)

/-- The pattern of a name stands at the first of the marks with the name. -/
theorem position_le_of_mem (h : ms.Pairwise fun a b => a.1 < b.1) (hp : p ∈ patterns ms)
    {position : Nat} {m : Mark} (hm : (position, m) ∈ ms) (hname : m.label = p.name) :
    p.position ≤ position := by
  obtain ⟨first, hfind, -⟩ := exists_find?_of_mem_patterns hp
  obtain ⟨-, before, after, rfl, hbefore⟩ := List.find?_eq_some_iff_append.1 hfind
  obtain ⟨-, hafter, -⟩ := List.pairwise_append.1 h
  rcases List.mem_append.1 hm with hm | hm
  · have hnot := hbefore _ hm
    simp [hname] at hnot
  · rcases List.mem_cons.1 hm with hm | hm
    · cases hm
      exact Nat.le_refl _
    · exact Nat.le_of_lt ((List.pairwise_cons.1 hafter).1 _ hm)

end

/-- A mark occurs in a content if it is one of its marks. -/
theorem mem_marks_iff {content : String} {m : Mark} :
    m ∈ marks content ↔ ∃ position, Occurs content position m := by
  rw [← map_snd_placed, List.mem_map]
  constructor
  · rintro ⟨⟨position, m⟩, hm, rfl⟩
    exact ⟨position, mem_placed_iff.1 hm⟩
  · rintro ⟨position, hm⟩
    exact ⟨(position, m), mem_placed_iff.2 hm, rfl⟩

theorem describes_detect (content : String) : Describes content (detect content) where
  distinct := by
    rw [map_name_detect]
    exact nodup_names content
  ascending := by
    rw [detect_eq]
    exact pairwise_patterns (pairwise_placed content)
  complete := by
    intro position m hm
    have hname : m.label ∈ names content :=
      List.mem_eraseDups.2 (List.mem_map_of_mem (mem_marks_iff.2 ⟨position, hm⟩))
    rw [← map_name_detect] at hname
    exact List.mem_map.1 hname
  occurs := by
    intro p hp
    rw [detect_eq] at hp
    obtain ⟨m, hm, hrest⟩ := exists_mem_of_mem_patterns hp
    exact ⟨m, mem_placed_iff.1 hm, hrest⟩
  first := by
    intro p hp position m hm hname
    rw [detect_eq] at hp
    exact position_le_of_mem (pairwise_placed content) hp (mem_placed_iff.2 hm) hname
  secret_iff := by
    intro p hp
    rw [secret_of_mem_detect hp, isSecret, List.any_eq_true]
    simp only [mem_marks_iff, Bool.and_eq_true, beq_iff_eq]
    constructor
    · rintro ⟨m, ⟨position, hm⟩, hname, hsecret⟩
      exact ⟨position, m, hm, hname, hsecret⟩
    · rintro ⟨position, m, hm, hname, hsecret⟩
      exact ⟨m, ⟨position, hm⟩, hname, hsecret⟩

theorem has_iff (content : String) : has content = true ↔ detect content ≠ [] := by
  have hnames : detect content = [] ↔ names content = [] := by
    rw [← map_name_detect, List.map_eq_nil_iff]
  have hmarks : names content = [] ↔ marks content = [] := by
    constructor
    · intro h
      rw [List.eq_nil_iff_forall_not_mem]
      intro m hm
      have hname : m.label ∈ names content := List.mem_eraseDups.2 (List.mem_map_of_mem hm)
      rw [h] at hname
      cases hname
    · intro h
      rw [names, h]
      rfl
  rw [Ne, hnames, hmarks, has]
  change (!(marks content).isEmpty) = true ↔ _
  simp

/-! ## Filling in -/

/-- A text is a content in which every mark of a known name is replaced by its value, and nothing
else is changed: the content is cut into pieces at all occurrences of marks and at nothing else,
and the text is put together of what stands for the pieces. -/
def Fills (style : Style) (values : Dict String) (content filled : String) : Prop :=
  ∃ pieces : List (Piece Mark),
    content.toList = pieces.flatMap marker.writePiece ∧
    filled.toList = pieces.flatMap (fillPiece style values) ∧
    (∀ m, .span m ∈ pieces → m.WellFormed) ∧
    ∀ m front rest, m.WellFormed → content.toList = front ++ m.write ++ rest →
      ∃ before after, pieces = before ++ .span m :: after ∧
        before.flatMap marker.writePiece = front

theorem fills_fill (style : Style) (values : Dict String) (content : String) :
    Fills style values content (fill style content values) := by
  refine ⟨marker.pieces content.toList, (marker.write_pieces _).symm, ?_, ?_, ?_⟩
  · rw [fill, String.toList_ofList]
    rfl
  · intro m hm
    obtain ⟨tail, htail⟩ := marker.exists_find_of_mem_pieces hm
    exact wellFormed_of_mark? htail
  · intro m front rest hm hcontent
    obtain ⟨before, hpieces, hwrite⟩ := exists_pieces_eq hm hcontent
    exact ⟨before, _, hpieces, hwrite⟩

/-- The name of every mark among the pieces of a content is detected. -/
theorem exists_pattern_of_mem_pieces {content : String} {m : Mark}
    (h : .span m ∈ marker.pieces content.toList) : ∃ p ∈ detect content, p.name = m.label := by
  have hm : m ∈ marks content := List.mem_filterMap.2 ⟨.span m, h, rfl⟩
  obtain ⟨position, hoccurs⟩ := mem_marks_iff.1 hm
  exact (describes_detect content).complete hoccurs

/-- Only the values of detected names matter. -/
theorem fill_congr {content : String} {values values' : Dict String}
    (h : ∀ p ∈ detect content, values'.get? p.name = values.get? p.name) (style : Style) :
    fill style content values' = fill style content values := by
  rw [fill, fill, fillWith_congr fun m hm => ?_]
  obtain ⟨p, hp, hname⟩ := exists_pattern_of_mem_pieces hm
  have hvalue := h p hp
  rw [hname] at hvalue
  simp only [fillPiece, show String.ofList m.name = m.label from rfl, hvalue]

theorem fill_of_unknown {content : String} {values : Dict String}
    (h : ∀ p ∈ detect content, values.get? p.name = none) (style : Style) :
    fill style content values = content := by
  have hunknown : ∀ m ∈ marker.spans content.toList,
      values.get? (String.ofList m.name) = none := by
    intro m hm
    obtain ⟨position, hoccurs⟩ := mem_marks_iff.1 hm
    obtain ⟨p, hp, hname⟩ := (describes_detect content).complete hoccurs
    have hvalue := h p hp
    rwa [hname] at hvalue
  rw [fill, fillWith_of_unknown style values _ hunknown, String.ofList_toList]

/-- Detection lists the marks that occur in a content, by their names; there is something to fill
in if the list is not empty; and filling replaces the marks of the names that have values, for
which it asks for the values of the listed names only. -/
theorem inputs_agree (content : String) :
    Describes content (detect content) ∧
    (has content = true ↔ detect content ≠ []) ∧
    ∀ (style : Style) (values : Dict String),
      (∀ values' : Dict String,
        (∀ p ∈ detect content, values'.get? p.name = values.get? p.name) →
        fill style content values' = fill style content values) ∧
      ((∀ p ∈ detect content, values.get? p.name = none) →
        fill style content values = content) ∧
      Fills style values content (fill style content values) :=
  ⟨describes_detect content, has_iff content, fun style values =>
    ⟨fun _ h => fill_congr h style, fun h => fill_of_unknown h style,
      fills_fill style values content⟩⟩

/-- A name that is secret at its second mark only, and a mark whose name is broken off by it. -/
theorem inputs_agree_sticky :
    let content := "{{:id}}/\x7b\x7b:{{:id!secret}}/{{:name}}"
    let values : Dict String := .ofList [("id", "a b")]
    let more : Dict String := .ofList [("id", "a b"), ("ID", "c")]
    detect content = [⟨"id", "{{:id}}", 0, true⟩, ⟨"name", "{{:name}}", 26, false⟩] ∧
    (∀ p ∈ detect content, more.get? p.name = values.get? p.name) ∧
    fill .escaped content more = "a%20b/\x7b\x7b:a%20b/{{:name}}" ∧
    fill .raw content .empty = content := by
  intro content values more
  have hdetect : detect content =
      [⟨"id", "{{:id}}", 0, true⟩, ⟨"name", "{{:name}}", 26, false⟩] := by decide
  have hmore : ∀ p ∈ detect content, more.get? p.name = values.get? p.name := by
    rw [hdetect]
    decide
  have hnone : ∀ p ∈ detect content, (Dict.empty : Dict String).get? p.name = none :=
    fun _ _ => rfl
  obtain ⟨-, -, hfill⟩ := inputs_agree content
  have hsame : fill .escaped content more = fill .escaped content values :=
    (hfill .escaped values).1 more hmore
  have hvalue : fill .escaped content values = "a%20b/\x7b\x7b:a%20b/{{:name}}" := by decide
  exact ⟨hdetect, hmore, hsame.trans hvalue, (hfill .raw .empty).2.1 hnone⟩

end Stencil.UserInput
