import Stencil.Proofs.Text.Utf8
import Stencil.Proofs.UserInput.Detection

/-!
# Occurrences of marks

A mark occurs in a content where its text stands there, whatever stands around it (`Occurs`).
Marks do not overlap, so reading a content from left to right meets every occurrence and nothing
else: the pieces of a content are cut at each of them (`exists_pieces_eq`), and the marks with
their places are the occurrences in ascending order (`mem_placed_iff`, `pairwise_placed`).
-/

namespace Stencil.UserInput

open Text

/-! ## Marks at the front of a text -/

/-- A name is a letter or an underscore, and then letters, digits and underscores. -/
def Mark.WellFormed (m : Mark) : Prop :=
  ∃ c r, m.name = c :: r ∧ isNameStart c ∧ ∀ d ∈ r, isNameChar d

/-- A well-formed mark stands in a content behind so many bytes. -/
def Occurs (content : String) (position : Nat) (m : Mark) : Prop :=
  m.WellFormed ∧ ∃ front rest, content.toList = front ++ m.write ++ rest ∧
    (String.ofList front).utf8ByteSize = position

theorem isNameChar_of_isNameStart {c : Char} (h : isNameStart c) : isNameChar c := by
  simp only [isNameStart, isNameChar, Char.isAlphanum, Bool.or_eq_true] at *
  tauto

theorem Mark.WellFormed.isNameChar {m : Mark} (h : m.WellFormed) {c : Char} (hc : c ∈ m.name) :
    isNameChar c := by
  obtain ⟨d, r, hname, hd, hr⟩ := h
  rw [hname] at hc
  rcases List.mem_cons.1 hc with rfl | hc
  · exact isNameChar_of_isNameStart hd
  · exact hr c hc

/-- What follows a name does not belong to it. -/
theorem head_ending (secret : Bool) :
    ∃ c r, Mark.ending secret = c :: r ∧ isNameChar c = false := by
  cases secret with
  | true => exact ⟨_, _, rfl, rfl⟩
  | false => exact ⟨_, _, rfl, rfl⟩

theorem mark?_write_append {m : Mark} (h : m.WellFormed) (rest : List Char) :
    mark? (m.write ++ rest) = some m := by
  obtain ⟨name, secret⟩ := m
  obtain ⟨c, r, rfl, hc, hr⟩ := h
  obtain ⟨e, es, hending, he⟩ := head_ending secret
  have htake : (r ++ (Mark.ending secret ++ rest)).takeWhile isNameChar = r := by
    rw [List.takeWhile_append_of_pos hr, hending, List.cons_append,
      List.takeWhile_cons_of_neg (by simp [he]), List.append_nil]
  have hdrop : (r ++ (Mark.ending secret ++ rest)).dropWhile isNameChar =
      Mark.ending secret ++ rest := by
    rw [List.dropWhile_append_of_pos hr, hending, List.cons_append,
      List.dropWhile_cons_of_neg (by simp [he])]
  have htext : Mark.write ⟨c :: r, secret⟩ ++ rest =
      '{' :: '{' :: ':' :: c :: (r ++ (Mark.ending secret ++ rest)) := by
    simp [Mark.write]
  rw [htext, mark?, if_pos hc]
  simp only [htake, hdrop]
  cases secret with
  | true => simp [startsWith, stripPrefix?, Mark.ending]
  | false => simp [startsWith, stripPrefix?, Mark.ending]

theorem wellFormed_of_mark? {cs : List Char} {m : Mark} (h : mark? cs = some m) :
    m.WellFormed := by
  unfold mark? at h
  split at h
  next c r =>
    split at h
    next hc =>
      have hname : ∀ d ∈ r.takeWhile isNameChar, isNameChar d :=
        List.all_eq_true.1 List.all_takeWhile
      dsimp only at h
      split at h
      next =>
        cases h
        exact ⟨c, _, rfl, hc, hname⟩
      next =>
        split at h
        next =>
          cases h
          exact ⟨c, _, rfl, hc, hname⟩
        next => cases h
    next => cases h
  next => cases h

/-- Exactly the well-formed marks are recognised. -/
theorem mark?_eq_some_iff {cs : List Char} {m : Mark} :
    mark? cs = some m ↔ m.WellFormed ∧ ∃ rest, cs = m.write ++ rest := by
  constructor
  · intro h
    exact ⟨wellFormed_of_mark? h, eq_append_of_mark? h⟩
  · rintro ⟨hm, rest, rfl⟩
    exact mark?_write_append hm rest

/-! ## Marks do not overlap -/

/-- Behind its first two characters a mark has no opening brace and no line feed. -/
theorem ne_of_mem_tail {m : Mark} (h : m.WellFormed) {c : Char}
    (hc : c ∈ ':' :: m.name ++ Mark.ending m.secret) : c ≠ '{' ∧ c ≠ '\n' := by
  have hname : ∀ d, isNameChar d → d ≠ '{' ∧ d ≠ '\n' := by
    intro d hd
    constructor
    · rintro rfl
      exact absurd hd (by decide)
    · rintro rfl
      exact absurd hd (by decide)
  have hending : ∀ secret, '{' ∉ Mark.ending secret ∧ '\n' ∉ Mark.ending secret := by decide
  rw [List.cons_append, List.mem_cons, List.mem_append] at hc
  rcases hc with rfl | hc | hc
  · decide
  · exact hname c (h.isNameChar hc)
  · obtain ⟨hbrace, hnewline⟩ := hending m.secret
    exact ⟨fun h => hbrace (h ▸ hc), fun h => hnewline (h ▸ hc)⟩

theorem newline_not_mem_write {m : Mark} (h : m.WellFormed) : '\n' ∉ m.write := by
  intro hmem
  have hwrite : m.write = '{' :: '{' :: (':' :: m.name ++ Mark.ending m.secret) := rfl
  rw [hwrite, List.mem_cons, List.mem_cons] at hmem
  rcases hmem with hc | hc | hc
  · exact absurd hc (by decide)
  · exact absurd hc (by decide)
  · exact (ne_of_mem_tail h hc).2 rfl

/-- A mark that begins on a line ends on it. -/
theorem mark?_append_newline (cs rest : List Char) : mark? (cs ++ '\n' :: rest) = mark? cs := by
  refine Option.ext fun m => ?_
  rw [mark?_eq_some_iff, mark?_eq_some_iff]
  refine and_congr_right fun hm => ?_
  constructor
  · rintro ⟨back, hback⟩
    rcases List.append_eq_append_iff.1 hback with ⟨inner, hwrite, hinner⟩ | ⟨inner, hcs, -⟩
    · cases inner with
      | nil => exact ⟨[], by rw [List.append_nil] at hwrite ⊢; exact hwrite.symm⟩
      | cons c inner =>
          -- the line feed would stand inside the mark
          obtain ⟨rfl, -⟩ := List.cons.inj hinner
          exact absurd (by rw [hwrite]; simp) (newline_not_mem_write hm)
    · exact ⟨inner, hcs⟩
  · rintro ⟨back, rfl⟩
    exact ⟨back ++ '\n' :: rest, List.append_assoc _ _ _⟩

/-- No mark begins inside a mark. -/
theorem not_overlap {a m : Mark} (ha : a.WellFormed) {front back rest rest' : List Char}
    (hfront : front ≠ []) (hwrite : a.write = front ++ back) (hback : back ≠ [])
    (hrest : back ++ rest' = m.write ++ rest) : False := by
  have hopen : a.write = '{' :: '{' :: (':' :: a.name ++ Mark.ending a.secret) := rfl
  have hm : m.write = '{' :: '{' :: (':' :: m.name ++ Mark.ending m.secret) := rfl
  obtain ⟨c, front, rfl⟩ := List.exists_cons_of_ne_nil hfront
  obtain ⟨b, back, rfl⟩ := List.exists_cons_of_ne_nil hback
  rw [hm] at hrest
  obtain ⟨hbrace, hbehind⟩ := List.cons.inj hrest
  rw [hopen] at hwrite
  have htail : '{' :: (':' :: a.name ++ Mark.ending a.secret) = front ++ b :: back :=
    (List.cons.inj hwrite).2
  cases front with
  | nil =>
      -- the second brace of `a` would be the first of `m`, but a colon follows it
      obtain rfl : ':' :: a.name ++ Mark.ending a.secret = back := (List.cons.inj htail).2
      have hcolon : ':' = '{' := (List.cons.inj hbehind).1
      exact absurd hcolon (by decide)
  | cons d front =>
      have hname : ':' :: a.name ++ Mark.ending a.secret = front ++ b :: back :=
        (List.cons.inj htail).2
      have hmem : b ∈ ':' :: a.name ++ Mark.ending a.secret := by
        rw [hname]
        simp
      exact (ne_of_mem_tail ha hmem).1 hbrace

/-- A content is cut into pieces at each occurrence of a mark. -/
theorem exists_pieces_eq {m : Mark} (hm : m.WellFormed) {cs front rest : List Char}
    (hcs : cs = front ++ m.write ++ rest) :
    ∃ before, marker.pieces cs = before ++ .span m :: marker.pieces rest ∧
      before.flatMap marker.writePiece = front := by
  induction cs using marker.pieces_induction generalizing front with
  | nil =>
      have hnil := congrArg List.length hcs
      simp [Mark.write] at hnil
  | char c cs hf ih =>
      cases front with
      | nil =>
          have hfind : marker.find (c :: cs) = some m := mark?_eq_some_iff.2 ⟨hm, rest, hcs⟩
          rw [hf] at hfind
          cases hfind
      | cons d front =>
          obtain ⟨rfl, htail⟩ := List.cons.inj hcs
          obtain ⟨before, hpieces, hwrite⟩ := ih htail
          refine ⟨.char c :: before, ?_, ?_⟩
          · rw [marker.pieces_cons hf, hpieces, List.cons_append]
          · rw [List.flatMap_cons, hwrite]
            rfl
  | span a rest' hf ih =>
      by_cases hfront : front = []
      · subst hfront
        have hfind : marker.find (a.write ++ rest') = some m :=
          mark?_eq_some_iff.2 ⟨hm, rest, hcs⟩
        obtain rfl : a = m := Option.some.inj (hf.symm.trans hfind)
        have hrest : rest' = rest := List.append_cancel_left hcs
        exact ⟨[], by rw [marker.pieces_of_find hf rfl, hrest, List.nil_append], rfl⟩
      · have ha : a.WellFormed := wellFormed_of_mark? hf
        rw [List.append_assoc] at hcs
        have hinner : ∃ inner, front = a.write ++ inner ∧ rest' = inner ++ (m.write ++ rest) := by
          rcases List.append_eq_append_iff.1 hcs with h | ⟨back, hwrite, hrest⟩
          · exact h
          · by_cases hback : back = []
            · rw [hback, List.append_nil] at hwrite
              rw [hback] at hrest
              exact ⟨[], hwrite.symm.trans (List.append_nil _).symm, hrest.symm⟩
            · exact (not_overlap ha hfront hwrite hback hrest.symm).elim
        obtain ⟨inner, rfl, hrest⟩ := hinner
        obtain ⟨before, hpieces, hbefore⟩ := ih (hrest.trans (List.append_assoc _ _ _).symm)
        refine ⟨.span a :: before, ?_, ?_⟩
        · rw [marker.pieces_of_find hf rfl, hpieces, List.cons_append]
        · rw [List.flatMap_cons, hbefore]
          rfl

/-! ## Places -/

theorem byteLength_eq (cs : List Char) : byteLength cs = (String.ofList cs).utf8ByteSize := by
  rw [utf8ByteSize_ofList]
  induction cs with
  | nil => rfl
  | cons c cs ih =>
      rw [utf8_cons, List.length_append, String.length_utf8EncodeChar, ← ih]
      rfl

theorem byteLength_append (a b : List Char) :
    byteLength (a ++ b) = byteLength a + byteLength b := by
  rw [byteLength_eq, byteLength_eq, byteLength_eq, String.ofList_append, String.utf8ByteSize_append]

theorem byteLength_write_pos (m : Mark) : 0 < byteLength m.write := by
  have hbrace : 0 < '{'.utf8Size := by decide
  exact Nat.lt_of_lt_of_le hbrace (Nat.le_add_right _ _)

theorem placedFrom_append (start : Nat) (before after : List (Piece Mark)) :
    placedFrom start (before ++ after) = placedFrom start before ++
      placedFrom (start + byteLength (before.flatMap marker.writePiece)) after := by
  induction before generalizing start with
  | nil => rfl
  | cons p before ih =>
      have hlength : ∀ size, size = byteLength (marker.writePiece p) →
          start + size + byteLength (before.flatMap marker.writePiece) =
            start + byteLength ((p :: before).flatMap marker.writePiece) := by
        rintro size rfl
        rw [List.flatMap_cons, byteLength_append, Nat.add_assoc]
      cases p with
      | char c =>
          rw [List.cons_append, placedFrom, placedFrom, ih, hlength c.utf8Size rfl]
      | span m =>
          rw [List.cons_append, placedFrom, placedFrom, ih, hlength (byteLength m.write) rfl,
            List.cons_append]

/-- A mark is placed behind the bytes of the pieces in front of it. -/
theorem exists_of_mem_placedFrom {start position : Nat} {m : Mark} {ps : List (Piece Mark)}
    (h : (position, m) ∈ placedFrom start ps) : ∃ before after, ps = before ++ .span m :: after ∧
      position = start + byteLength (before.flatMap marker.writePiece) := by
  induction ps generalizing start with
  | nil => cases h
  | cons p ps ih =>
      have hnext : ∀ size, size = byteLength (marker.writePiece p) →
          (position, m) ∈ placedFrom (start + size) ps →
          ∃ before after, p :: ps = before ++ .span m :: after ∧
            position = start + byteLength (before.flatMap marker.writePiece) := by
        rintro size rfl hmem
        obtain ⟨before, after, hps, hposition⟩ := ih hmem
        refine ⟨p :: before, after, congrArg (p :: ·) hps, ?_⟩
        rw [hposition, List.flatMap_cons, byteLength_append, Nat.add_assoc]
      cases p with
      | char c => exact hnext c.utf8Size rfl h
      | span a =>
          rcases List.mem_cons.1 h with h | h
          · cases h
            exact ⟨[], ps, rfl, rfl⟩
          · exact hnext _ rfl h

theorem mem_placed_iff {content : String} {position : Nat} {m : Mark} :
    (position, m) ∈ placed content ↔ Occurs content position m := by
  constructor
  · intro h
    obtain ⟨before, after, hpieces, rfl⟩ := exists_of_mem_placedFrom h
    have hfind : ∃ tail, mark? tail = some m :=
      marker.exists_find_of_mem_pieces (by rw [hpieces]; simp)
    obtain ⟨tail, htail⟩ := hfind
    have hwritten := marker.write_pieces content.toList
    rw [hpieces, List.flatMap_append, List.flatMap_cons] at hwritten
    refine ⟨wellFormed_of_mark? htail, before.flatMap marker.writePiece,
      after.flatMap marker.writePiece, ?_, ?_⟩
    · rw [List.append_assoc]
      exact hwritten.symm
    · rw [← byteLength_eq, Nat.zero_add]
  · rintro ⟨hm, front, rest, hcontent, rfl⟩
    obtain ⟨before, hpieces, hwrite⟩ := exists_pieces_eq hm hcontent
    rw [placed, hpieces, placedFrom_append, hwrite, ← byteLength_eq, Nat.zero_add]
    exact List.mem_append_right _ List.mem_cons_self

theorem le_of_mem_placedFrom {start : Nat} {ps : List (Piece Mark)} {entry : Nat × Mark}
    (h : entry ∈ placedFrom start ps) : start ≤ entry.1 := by
  obtain ⟨before, after, -, hposition⟩ := exists_of_mem_placedFrom h
  exact hposition ▸ Nat.le_add_right _ _

theorem pairwise_placedFrom (start : Nat) (ps : List (Piece Mark)) :
    (placedFrom start ps).Pairwise fun a b => a.1 < b.1 := by
  induction ps generalizing start with
  | nil => exact List.Pairwise.nil
  | cons p ps ih =>
      cases p with
      | char c => exact ih _
      | span m =>
          refine List.pairwise_cons.2 ⟨fun entry hentry => ?_, ih _⟩
          have hle := le_of_mem_placedFrom hentry
          have hpos := byteLength_write_pos m
          exact Nat.lt_of_lt_of_le (Nat.lt_add_of_pos_right hpos) hle

/-- Later marks have later places. -/
theorem pairwise_placed (content : String) :
    (placed content).Pairwise fun a b => a.1 < b.1 :=
  pairwise_placedFrom 0 _

end Stencil.UserInput
