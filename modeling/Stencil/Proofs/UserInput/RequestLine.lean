import Stencil.Proofs.Text.Lines
import Stencil.Proofs.UserInput.Occurrences

/-!
# Filling in a request

A request is filled in line by line, and the request line in a style of its own. As no mark
crosses the end of a line, this is the same as filling in three parts, each as a whole: what
stands in front of the request line, the request line, and what stands behind it
(`fillRequest_parts`).
-/

namespace Stencil.UserInput

open Text

/-! ## Filling in line by line -/

/-- A text may be filled in part by part where a line ends. -/
theorem fillWith_append {a : List Char} (h : Broken a) (style : Style) (values : Dict String)
    (b : List Char) :
    fillWith style values (a ++ b) = fillWith style values a ++ fillWith style values b := by
  have hpieces : marker.pieces (a ++ b) = marker.pieces a ++ marker.pieces b := by
    rcases h with rfl | ⟨body, rfl⟩
    · rfl
    · rw [List.append_assoc, List.singleton_append,
        marker.pieces_append_of_stop mark?_append_newline,
        marker.pieces_append_of_stop mark?_append_newline, List.append_assoc]
      rfl
  rw [fillWith, hpieces, List.flatMap_append]
  rfl

theorem flatMap_fillWith_splitLines (style : Style) (values : Dict String) (cs : List Char) :
    (splitLines cs).flatMap (fillWith style values) = fillWith style values cs := by
  induction cs using lines_induction with
  | nil => rfl
  | last cs hne hnot =>
      rw [splitLines_of_not_mem hne hnot, List.flatMap_singleton]
  | line body rest hbody ih =>
      have hcut : body ++ '\n' :: rest = body ++ ['\n'] ++ rest := by simp
      rw [splitLines_append hbody, List.flatMap_cons, ih, hcut,
        fillWith_append (.inr ⟨body, rfl⟩)]

theorem fillLines_of_preamble (values : Dict String) {lines : List (List Char)}
    (h : ∀ line ∈ lines, isPreamble line = true) :
    fillLines values lines = lines.flatMap (fillWith .raw values) := by
  induction lines with
  | nil => rfl
  | cons line lines ih =>
      obtain ⟨hline, hlines⟩ := List.forall_mem_cons.1 h
      rw [fillLines, if_pos hline, ih hlines, List.flatMap_cons]

theorem fillLines_append (values : Dict String) {before : List (List Char)}
    (h : ∀ line ∈ before, isPreamble line = true) {line : List Char}
    (hline : isPreamble line = false) (after : List (List Char)) :
    fillLines values (before ++ line :: after) =
      before.flatMap (fillWith .raw values) ++ fillWith .escaped values line ++
        after.flatMap (fillWith .raw values) := by
  induction before with
  | nil => rw [List.nil_append, fillLines, if_neg (by simp [hline])]; rfl
  | cons first before ih =>
      obtain ⟨hfirst, hbefore⟩ := List.forall_mem_cons.1 h
      rw [List.cons_append, fillLines, if_pos hfirst, ih hbefore, List.flatMap_cons,
        List.append_assoc, List.append_assoc, List.append_assoc]

/-! ## The parts of a request -/

/-- The request line of a content and what stands in front of it and behind it. It is the first of
the lines that are neither blank nor a comment; if all are, it is empty and so is what stands
behind it. -/
inductive RequestParts (content : String) : (front line back : String) → Prop
  | line {front line back : String} (whole : content = front ++ line ++ back)
      (isLine : IsLine front.toList line.toList back.toList)
      (isRequest : isPreamble line.toList = false)
      (first : ∀ before earlier after, content.toList = before ++ earlier ++ after →
        IsLine before earlier after → before.length < front.toList.length →
        isPreamble earlier = true) : RequestParts content front line back
  | none (all : ∀ before line after, content.toList = before ++ line ++ after →
      IsLine before line after → isPreamble line = true) : RequestParts content content "" ""

/-- A line that stands nearer to the beginning is one of the lines in front. -/
theorem mem_of_length_lt {before after before' after' : List (List Char)} {line line' : List Char}
    (h : before' ++ line' :: after' = before ++ line :: after)
    (hlt : before'.flatten.length < before.flatten.length) : line' ∈ before := by
  rcases List.append_eq_append_iff.1 h with ⟨inner, rfl, hinner⟩ | ⟨inner, rfl, -⟩
  · cases inner with
    | nil => simp at hlt
    | cons l inner =>
        obtain ⟨rfl, -⟩ := List.cons.inj hinner
        simp
  · rw [List.flatten_append, List.length_append] at hlt
    exact absurd hlt (Nat.not_lt.2 (Nat.le_add_right _ _))

/-- The first of the lines that is neither blank nor a comment is the request line. -/
theorem requestParts_of_splitLines {content : String} {before after : List (List Char)}
    {line : List Char} (hlines : splitLines content.toList = before ++ line :: after)
    (hbefore : ∀ earlier ∈ before, isPreamble earlier = true)
    (hrequest : isPreamble line = false) :
    RequestParts content (String.ofList before.flatten) (String.ofList line)
      (String.ofList after.flatten) := by
  have hcontent : content.toList = before.flatten ++ line ++ after.flatten := by
    rw [← flatten_splitLines content.toList, hlines]
    simp
  refine .line ?_ ?_ ?_ ?_
  · rw [← String.toList_inj, hcontent]
    simp
  · simpa using isLine_of_splitLines hlines
  · simpa using hrequest
  · intro before' line' after' hcontent' hline' hlt
    obtain ⟨lines, _, hcut, rfl, -⟩ := isLine_iff.1 hline'
    rw [← hcontent', hlines] at hcut
    exact hbefore line' (mem_of_length_lt hcut.symm (by simpa using hlt))

/-- Every content has such parts. -/
theorem exists_requestParts (content : String) :
    ∃ front line back, RequestParts content front line back := by
  have hlines := List.takeWhile_append_dropWhile (p := isPreamble) (l := splitLines content.toList)
  have hbefore : ∀ line ∈ (splitLines content.toList).takeWhile isPreamble,
      isPreamble line = true := List.all_eq_true.1 List.all_takeWhile
  cases hdrop : (splitLines content.toList).dropWhile isPreamble with
  | nil =>
      rw [hdrop, List.append_nil] at hlines
      rw [hlines] at hbefore
      refine ⟨content, "", "", .none fun before line after hcontent hline => ?_⟩
      obtain ⟨_, _, hcut, -, -⟩ := isLine_iff.1 hline
      refine hbefore line ?_
      rw [hcontent, hcut]
      simp
  | cons line after =>
      rw [hdrop] at hlines
      have hrequest : isPreamble line = false := by
        have hhead := List.head?_dropWhile_not isPreamble (splitLines content.toList)
        rw [hdrop] at hhead
        simpa using hhead
      exact ⟨_, _, _, requestParts_of_splitLines hlines.symm hbefore hrequest⟩

section

variable {content front line back : String}

theorem RequestParts.whole (h : RequestParts content front line back) :
    content = front ++ line ++ back := by
  cases h with
  | line whole _ _ _ => exact whole
  | none _ => simp

/-- A request is filled in in one style as its parts are. -/
theorem RequestParts.fill_eq (h : RequestParts content front line back) (style : Style)
    (values : Dict String) :
    fill style content values =
      fill style front values ++ fill style line values ++ fill style back values := by
  rw [← String.toList_inj, String.toList_append, String.toList_append]
  simp only [fill, String.toList_ofList]
  cases h with
  | none _ => exact ((List.append_nil _).trans (List.append_nil _)).symm
  | line whole isLine _ _ =>
      rw [whole, String.toList_append, String.toList_append, List.append_assoc,
        fillWith_append isLine.begins, List.append_assoc]
      congr 1
      obtain ⟨body, -, hline | ⟨-, -, hback⟩⟩ := isLine.stands
      · exact fillWith_append (.inr ⟨body, hline⟩) style values _
      · rw [hback, List.append_nil]
        exact (List.append_nil _).symm

theorem RequestParts.fillRequest_eq (h : RequestParts content front line back)
    (values : Dict String) :
    fillRequest content values =
      fill .raw front values ++ fill .escaped line values ++ fill .raw back values := by
  rw [← String.toList_inj, String.toList_append, String.toList_append]
  simp only [fill, fillRequest, String.toList_ofList]
  cases h with
  | none all =>
      have hall : ∀ line ∈ splitLines content.toList, isPreamble line = true := by
        intro line hline
        obtain ⟨before, after, hcontent, hisLine, -⟩ :=
          exists_isLine (List.append_nil _).symm hline
        exact all before line after hcontent hisLine
      rw [fillLines_of_preamble values hall, flatMap_fillWith_splitLines]
      exact ((List.append_nil _).trans (List.append_nil _)).symm
  | line whole isLine isRequest first =>
      have hlines : splitLines content.toList =
          splitLines front.toList ++ line.toList :: splitLines back.toList := by
        rw [whole, String.toList_append, String.toList_append, isLine.splitLines_append]
      have hbefore : ∀ earlier ∈ splitLines front.toList, isPreamble earlier = true := by
        intro earlier hearlier
        obtain ⟨before, after, hcontent, hisLine, hlt⟩ := exists_isLine hlines hearlier
        rw [flatten_splitLines] at hlt
        exact first before earlier after hcontent hisLine hlt
      rw [hlines, fillLines_append values hbefore isRequest, flatMap_fillWith_splitLines,
        flatMap_fillWith_splitLines]

end

/-- Values that escaping does not change are filled in in either style. -/
theorem fill_escaped_of_plain {values : Dict String} (h : ∀ name value,
    values.get? name = some value → Percent.encodePath value.toList = value.toList)
    (content : String) : fill .escaped content values = fill .raw content values := by
  rw [fill, fill, fillWith_congr fun m _ => ?_]
  simp only [fillPiece]
  cases hvalue : values.get? (String.ofList m.name) with
  | none => rfl
  | some value => exact h _ value hvalue

/-- A request is filled in as its parts are: what stands in front of the request line and behind
it with the values as they are, the request line with the values escaped. If escaping changes none
of the values, the request is filled in as a text without a request line would be. -/
theorem fillRequest_parts (content : String) (values : Dict String) :
    (∃ front line back, RequestParts content front line back) ∧
    (∀ front line back, RequestParts content front line back →
      content = front ++ line ++ back ∧
      fillRequest content values =
        fill .raw front values ++ fill .escaped line values ++ fill .raw back values) ∧
    ((∀ name value, values.get? name = some value →
        Percent.encodePath value.toList = value.toList) →
      fillRequest content values = fill .raw content values) := by
  refine ⟨exists_requestParts content, fun front line back h => ⟨h.whole, h.fillRequest_eq values⟩,
    fun hplain => ?_⟩
  obtain ⟨front, line, back, h⟩ := exists_requestParts content
  rw [h.fillRequest_eq values, h.fill_eq .raw values, fill_escaped_of_plain hplain line]

/-- A name in a comment, in the request line and in the body, with a value that is escaped and one
that is not. -/
theorem fillRequest_parts_comment :
    let content := "# {{:id}}\nGET /{{:id}}\n\n{{:id}}"
    RequestParts content "# {{:id}}\n" "GET /{{:id}}\n" "\n{{:id}}" ∧
    fillRequest content (Dict.empty.insert "id" "a b") = "# a b\nGET /a%20b\n\na b" ∧
    fillRequest content (Dict.empty.insert "id" "7") = "# 7\nGET /7\n\n7" := by
  intro content
  have hlines : splitLines content.toList =
      ["# {{:id}}\n".toList] ++ "GET /{{:id}}\n".toList :: ["\n".toList, "{{:id}}".toList] := by
    decide
  have hparts : RequestParts content "# {{:id}}\n" "GET /{{:id}}\n" "\n{{:id}}" :=
    requestParts_of_splitLines hlines (by decide) (by decide)
  have hplain : ∀ name value, (Dict.empty.insert "id" "7").get? name = some value →
      Percent.encodePath value.toList = value.toList := by
    intro name value hvalue
    rw [Dict.get?_insert] at hvalue
    split at hvalue
    · cases hvalue
      decide
    · cases hvalue
  obtain ⟨-, hfill, -⟩ := fillRequest_parts content (Dict.empty.insert "id" "a b")
  obtain ⟨-, -, hraw⟩ := fillRequest_parts content (Dict.empty.insert "id" "7")
  refine ⟨hparts, ?_, ?_⟩
  · rw [(hfill _ _ _ hparts).2]
    decide
  · rw [hraw hplain]
    decide

end Stencil.UserInput
