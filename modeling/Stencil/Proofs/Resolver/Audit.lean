import Stencil.Proofs.Resolver.History
import Stencil.Proofs.Resolver.Plain

/-!
# Audits

An audit does what a resolver does and keeps the books on placeholders without a value: with every
text it notes which of them were left in it and which of them were lost, because the value in
which they were left was percent-encoded afterwards. The main statements are that the audit of a
history follows the history (`follows_runAll`), so the texts are those of the resolver, and that
a text in which a placeholder was left holds some placeholder (`Rendering.unresolved_ne_nil`).
-/

namespace Stencil.Resolver

open Text

/-! ## Renderings -/

/-- A text in the making, with the placeholders that had no value. -/
structure Rendering where
  /-- The text: its characters and the placeholders that were left. -/
  pieces : List (Piece (List Char))
  /-- The placeholders that were left in a value and then percent-encoded with it. -/
  lost : List (List Char)

namespace Rendering

def chars (r : Rendering) : List Char := r.pieces.flatMap Template.marker.writePiece

def text (r : Rendering) : String := String.ofList r.chars

/-- The placeholders that were left and still stand in the text. -/
def left (r : Rendering) : List (List Char) :=
  r.pieces.filterMap fun
    | .char _ => none
    | .span inner => some inner

/-- All placeholders without a value that were met for the text. -/
def failed (r : Rendering) : List (List Char) := r.left ++ r.lost

def ofChars (cs : List Char) : Rendering := ⟨cs.map .char, []⟩

def leave (inner : List Char) : Rendering := ⟨[.span inner], []⟩

def append (r r' : Rendering) : Rendering := ⟨r.pieces ++ r'.pieces, r.lost ++ r'.lost⟩

/-- Percent-encodes a text; then nothing is left in it any more. -/
def encodeIf (encoded : Bool) (r : Rendering) : Rendering :=
  if encoded then ⟨(Percent.encode r.chars).map .char, r.failed⟩ else r

/-- The placeholders that were left are read back wherever they stand. -/
def Sound (r : Rendering) : Prop := ∀ inner ∈ r.left, Template.Readable inner

theorem chars_of_chars (cs : List Char) :
    (cs.map Piece.char).flatMap Template.marker.writePiece = cs := by
  induction cs with
  | nil => rfl
  | cons c cs ih =>
      rw [List.map_cons, List.flatMap_cons, ih]
      rfl

@[simp] theorem chars_ofChars (cs : List Char) : (ofChars cs).chars = cs := chars_of_chars cs

@[simp] theorem left_ofChars (cs : List Char) : (ofChars cs).left = [] := by
  induction cs with
  | nil => rfl
  | cons c cs ih => exact ih

@[simp] theorem chars_leave (inner : List Char) : (leave inner).chars = Template.write inner := by
  simp [leave, chars, Marker.writePiece, Template.marker]

@[simp] theorem chars_append (r r' : Rendering) : (r.append r').chars = r.chars ++ r'.chars := by
  simp [append, chars]

@[simp] theorem left_append (r r' : Rendering) : (r.append r').left = r.left ++ r'.left := by
  simp [append, left]

theorem text_encodeIf (encoded : Bool) (r : Rendering) :
    (r.encodeIf encoded).text = Resolver.encodeIf encoded r.text := by
  cases encoded with
  | false => rfl
  | true =>
      simp only [encodeIf, Resolver.encodeIf, text, chars, if_true, String.toList_ofList]
      rw [chars_of_chars]

theorem Sound.ofChars (cs : List Char) : (ofChars cs).Sound := by
  intro inner hmem
  rw [left_ofChars] at hmem
  cases hmem

theorem Sound.leave {inner : List Char} (h : Template.Readable inner) : (leave inner).Sound := by
  intro inner' hmem
  obtain rfl : inner' = inner := by simpa [Rendering.leave, left] using hmem
  exact h

theorem Sound.append {r r' : Rendering} (h : r.Sound) (h' : r'.Sound) : (r.append r').Sound := by
  intro inner hmem
  rw [left_append, List.mem_append] at hmem
  exact hmem.elim (h inner) (h' inner)

theorem Sound.encodeIf {r : Rendering} (h : r.Sound) (encoded : Bool) :
    (r.encodeIf encoded).Sound := by
  cases encoded with
  | false => exact h
  | true => exact Sound.ofChars (Percent.encode r.chars)

/-- A text in which a placeholder was left holds some placeholder. -/
theorem unresolved_ne_nil {r : Rendering} (h : r.Sound) (hleft : r.left ≠ []) :
    Template.unresolved r.text ≠ [] := by
  obtain ⟨inner, hmem⟩ := List.exists_mem_of_ne_nil _ hleft
  have hspan : .span inner ∈ r.pieces := by
    obtain ⟨piece, hpiece, heq⟩ := List.mem_filterMap.1 hmem
    cases piece with
    | char c => cases heq
    | span a =>
        cases heq
        exact hpiece
  obtain ⟨before, after, hpieces⟩ := List.append_of_mem hspan
  have htext : r.text.toList = before.flatMap Template.marker.writePiece ++
      (Template.write inner ++ after.flatMap Template.marker.writePiece) := by
    rw [text, String.toList_ofList, chars, hpieces, List.flatMap_append, List.flatMap_cons]
    rfl
  exact Template.unresolved_ne_nil (h inner hmem) htext

/-- The placeholders in a text tell whether any failed, unless some were lost. -/
theorem failed_iff {r : Rendering} (h : r.Sound) :
    (r.failed ≠ [] → Template.unresolved r.text ≠ []) ↔
      (r.lost = [] ∨ Template.unresolved r.text ≠ []) := by
  constructor
  · intro hreport
    by_cases hlost : r.lost = []
    · exact .inl hlost
    · refine .inr (hreport ?_)
      simp [failed, hlost]
  · rintro (hlost | hne) hfailed
    · refine unresolved_ne_nil h ?_
      intro hnil
      exact hfailed (by rw [failed, hnil, hlost]; rfl)
    · exact hne

/-- Without two opening braces in a row but those that were left, it is the lost ones alone. -/
theorem failed_iff_of_left_or_clean {r : Rendering} (h : r.Sound)
    (hclean : r.left ≠ [] ∨ occurs ['{', '{'] r.text.toList = false) :
    (r.failed ≠ [] → Template.unresolved r.text ≠ []) ↔ (r.lost = [] ∨ r.left ≠ []) := by
  rw [failed_iff h]
  rcases hclean with hne | hocc
  · simp only [hne, unresolved_ne_nil h hne, ne_eq, not_false_eq_true, or_true]
  · have hnone := Template.unresolved_of_not_occurs hocc
    have hnil : r.left = [] := Classical.byContradiction fun hne => unresolved_ne_nil h hne hnone
    simp [hnone, hnil]

end Rendering

/-! ## Audits of evaluation -/

/-- The state of an audit: renderings take the place of values. -/
structure Ledger where
  cache : Dict Rendering
  journal : Journal

/-- A step of an audit. -/
abbrev Audit := Ledger → Except LookupError Rendering × Ledger

/-- Notes a rendering under an expression. -/
def Ledger.note (l : Ledger) (e : String) (r : Rendering) : Except LookupError Rendering × Ledger :=
  (.ok r, ⟨l.cache.insert e r, l.journal⟩)

/-- Audits `resolveWith`. -/
def auditWith (b : Bindings) (s : Surroundings) (nested : String → Audit) (e : String) : Audit :=
  fun l =>
    match l.cache.get? e with
    | some r => (.ok r, l)
    | none =>
      match b.template? (stripPercent e).1 with
      | some template =>
        match nested template ⟨l.cache, l.journal.warn (b.remarks (stripPercent e).1)⟩ with
        | (.ok r, l) => l.note e (r.encodeIf (stripPercent e).2)
        | (.error err, l) => (.error err, l)
      | none =>
        match answer b s (stripPercent e).1 l.journal with
        | (.ok value, journal) =>
          Ledger.note ⟨l.cache, journal⟩ e
            ((Rendering.ofChars value.toList).encodeIf (stripPercent e).2)
        | (.error err, journal) => (.error err, ⟨l.cache, journal⟩)

/-- Puts a rendering in front of a result. -/
def Rendering.before (r : Rendering) : Except LookupError Rendering × Ledger →
    Except LookupError Rendering × Ledger
  | (.ok rest, l) => (.ok (r.append rest), l)
  | (.error err, l) => (.error err, l)

/-- Audits `expandNested`. -/
def auditPieces (resolve : String → Audit) : List (Piece (List Char)) → Audit
  | [], l => (.ok (.ofChars []), l)
  | .char c :: rest, l => (Rendering.ofChars [c]).before (auditPieces resolve rest l)
  | .span inner :: rest, l =>
    match resolve (Template.expression inner) l with
    | (.ok r, l) => r.before (auditPieces resolve rest l)
    | (.error (.recursionLimit text), l) => (.error (.recursionLimit text), l)
    | (.error _, l) => (Rendering.leave inner).before (auditPieces resolve rest l)

/-- Audits `nested`. -/
def auditNested (b : Bindings) (s : Surroundings) : (room : Nat) → String → Audit
  | 0, text, l =>
    if occurs ['{', '{'] text.toList then (.error (.recursionLimit text), l)
    else (.ok (.ofChars text.toList), l)
  | room + 1, text, l =>
    auditPieces (auditWith b s (auditNested b s room)) (Template.pieces text) l

/-- Audits `resolveTop`. -/
def auditTop (b : Bindings) (s : Surroundings) (e : String) : Audit :=
  auditWith b s (auditNested b s depthLimit) e

/-- Audits `expand`. -/
def auditText (resolve : String → Audit) : List (Piece (List Char)) → Ledger → Rendering × Ledger
  | [], l => (.ofChars [], l)
  | .char c :: rest, l =>
    let (r, l) := auditText resolve rest l
    ((Rendering.ofChars [c]).append r, l)
  | .span inner :: rest, l =>
    match resolve (Template.expression inner) l with
    | (.ok r, l) =>
      let (r', l) := auditText resolve rest l
      (r.append r', l)
    | (.error _, l) =>
      let (r', l) := auditText resolve rest l
      ((Rendering.leave inner).append r', l)

/-! ## Audits follow resolvers -/

/-- A property of expressions that goes down to the expressions in their templates, and under
which no percent sign stands in front of the name of a variable. -/
structure Gentle (b : Bindings) (P : String → Prop) : Prop where
  not_encoded : ∀ {e template}, P e → b.template? (stripPercent e).1 = some template →
    (stripPercent e).2 = false
  down : ∀ {e template inner}, P e → b.template? (stripPercent e).1 = some template →
    .span inner ∈ Template.pieces template → P (Template.expression inner)

/-- A rendering is sound, and under a condition nothing is lost in it. -/
def Rendering.Booked (r : Rendering) (gentle : Prop) : Prop := r.Sound ∧ (gentle → r.lost = [])

/-- A ledger and a state agree, and nothing is lost under expressions with the property. -/
structure Tracks (P : String → Prop) (l : Ledger) (st : State) : Prop where
  journal : st.journal = l.journal
  value : ∀ e, st.cache.get? e = (l.cache.get? e).map Rendering.text
  booked : ∀ e r, l.cache.get? e = some r → r.Booked (P e)

/-- A step of an audit and a step of a resolver agree. -/
inductive Matches (P : String → Prop) (gentle : Prop) :
    Except LookupError Rendering × Ledger → Except LookupError String × State → Prop
  | ok {r l st} : r.Booked gentle → Tracks P l st → Matches P gentle (.ok r, l) (.ok r.text, st)
  | error {err l st} : Tracks P l st → Matches P gentle (.error err, l) (.error err, st)

variable {P : String → Prop} {b : Bindings} {s : Surroundings}

theorem Rendering.Booked.ofChars (cs : List Char) (gentle : Prop) :
    (Rendering.ofChars cs).Booked gentle :=
  ⟨.ofChars cs, fun _ => rfl⟩

theorem Rendering.Booked.leave {inner : List Char} (h : Template.Readable inner)
    (gentle : Prop) : (Rendering.leave inner).Booked gentle :=
  ⟨.leave h, fun _ => rfl⟩

theorem Rendering.Booked.mono {r : Rendering} {gentle gentle' : Prop} (h : r.Booked gentle)
    (hg : gentle' → gentle) : r.Booked gentle' :=
  ⟨h.1, fun hgentle => h.2 (hg hgentle)⟩

theorem Rendering.Booked.encodeIf {r : Rendering} {gentle : Prop} (h : r.Booked gentle)
    {encoded : Bool} (hg : gentle → encoded = false) : (r.encodeIf encoded).Booked gentle := by
  refine ⟨h.1.encodeIf encoded, ?_⟩
  intro hgentle
  rw [hg hgentle]
  exact h.2 hgentle

theorem Rendering.Booked.encodeIf_ofChars (cs : List Char) (encoded : Bool) (gentle : Prop) :
    ((Rendering.ofChars cs).encodeIf encoded).Booked gentle := by
  refine ⟨(Sound.ofChars cs).encodeIf encoded, ?_⟩
  intro _
  cases encoded with
  | false => rfl
  | true =>
      show (Rendering.ofChars cs).failed = []
      rw [failed, left_ofChars]
      rfl

theorem Rendering.Booked.append {r r' : Rendering} {gentle : Prop} (h : r.Booked gentle)
    (h' : r'.Booked gentle) : (r.append r').Booked gentle := by
  refine ⟨h.1.append h'.1, ?_⟩
  intro hg
  simp [Rendering.append, h.2 hg, h'.2 hg]

theorem Tracks.empty (journal : Journal) : Tracks P ⟨.empty, journal⟩ ⟨.empty, journal⟩ where
  journal := rfl
  value := fun _ => rfl
  booked := by
    intro e r h
    rw [Dict.get?_empty] at h
    cases h

/-- What is kept is noted. -/
theorem Tracks.note {l : Ledger} {st : State} (h : Tracks P l st) {e : String} {r : Rendering}
    (hr : r.Booked (P e)) :
    Matches P (P e) (l.note e r) (.ok r.text, ⟨st.cache.insert e r.text, st.journal⟩) := by
  refine .ok hr ⟨h.journal, ?_, ?_⟩
  · intro k
    rw [Dict.get?_insert, Dict.get?_insert, h.value k]
    split
    · rfl
    · rfl
  · intro k r' hk
    rw [Dict.get?_insert] at hk
    split at hk
    next heq =>
      cases hk
      exact heq ▸ hr
    next => exact h.booked k r' hk

theorem Matches.mono {gentle gentle' : Prop} {p : Except LookupError Rendering × Ledger}
    {q : Except LookupError String × State} (h : Matches P gentle p q) (hg : gentle' → gentle) :
    Matches P gentle' p q := by
  cases h with
  | ok hr ht => exact .ok (hr.mono hg) ht
  | error ht => exact .error ht

/-- The property holds of the expressions among the pieces of a text. -/
def GentleIn (P : String → Prop) (ps : List (Piece (List Char))) : Prop :=
  ∀ inner, .span inner ∈ ps → P (Template.expression inner)

theorem GentleIn.tail {piece : Piece (List Char)} {rest : List (Piece (List Char))}
    (h : GentleIn P (piece :: rest)) : GentleIn P rest :=
  fun inner hmem => h inner (List.mem_cons_of_mem _ hmem)

theorem matches_resolveWith (hP : Gentle b P) {audit : String → Audit}
    {evaluate : String → Step String}
    (h : ∀ text l st, Tracks P l st →
      Matches P (GentleIn P (Template.pieces text)) (audit text l) (evaluate text st))
    (e : String) {l : Ledger} {st : State} (ht : Tracks P l st) :
    Matches P (P e) (auditWith b s audit e l) (resolveWith b s evaluate e st) := by
  cases hnoted : l.cache.get? e with
  | some r =>
      have hkept : st.cache.get? e = some r.text := by rw [ht.value, hnoted]; rfl
      simp only [auditWith, resolveWith, hnoted, hkept]
      exact .ok (ht.booked e r hnoted) ht
  | none =>
      have hkept : st.cache.get? e = none := by rw [ht.value, hnoted]; rfl
      rw [resolveWith_of_not_kept hkept]
      simp only [auditWith, hnoted]
      cases htemplate : b.template? (stripPercent e).1 with
      | some template =>
          rw [lookup_of_template htemplate]
          dsimp only
          have hwarned : Tracks P ⟨l.cache, l.journal.warn (b.remarks (stripPercent e).1)⟩
              ⟨st.cache, st.journal.warn (b.remarks (stripPercent e).1)⟩ :=
            ⟨congrArg (fun j : Journal => j.warn _) ht.journal, ht.value, ht.booked⟩
          have hm := (h template _ _ hwarned).mono fun he inner => hP.down he htemplate
          revert hm
          generalize audit template ⟨l.cache, l.journal.warn (b.remarks (stripPercent e).1)⟩ = p
          generalize evaluate template ⟨st.cache, st.journal.warn (b.remarks (stripPercent e).1)⟩ = q
          rintro (⟨hr, ht'⟩ | ht')
          · -- nothing is lost in the value, for a gentle expression is not encoded
            have hbooked := hr.encodeIf fun he => hP.not_encoded he htemplate
            have hnote := ht'.note hbooked
            rw [Rendering.text_encodeIf] at hnote
            exact hnote
          · exact .error ht'
      | none =>
          rw [lookup_of_leaf htemplate, ht.journal]
          rcases answer b s (stripPercent e).1 l.journal with ⟨err | value, journal⟩
          · exact .error ⟨rfl, ht.value, ht.booked⟩
          · have ht' : Tracks P ⟨l.cache, journal⟩ ⟨st.cache, journal⟩ :=
              ⟨rfl, ht.value, ht.booked⟩
            have hnote := ht'.note (.encodeIf_ofChars value.toList (stripPercent e).2 (P e))
            rw [Rendering.text_encodeIf, Rendering.text, Rendering.chars_ofChars,
              String.ofList_toList] at hnote
            exact hnote

/-- The result of a step as a string. -/
def asString (q : Except LookupError (List Char) × State) : Except LookupError String × State :=
  (q.1.map String.ofList, q.2)

theorem Matches.before {gentle : Prop} {p : Except LookupError Rendering × Ledger}
    {q : Except LookupError (List Char) × State} (h : Matches P gentle p (asString q))
    {r : Rendering} (hr : r.Booked gentle) :
    Matches P gentle (r.before p) (asString (prepend r.chars q)) := by
  obtain ⟨p₁, p₂⟩ := p
  obtain ⟨_ | cs, st⟩ := q
  · cases h with
    | error ht => exact .error ht
  · generalize hq : asString (.ok cs, st) = q at h
    cases h with
    | error ht => cases hq
    | @ok r' _ _ hr' ht =>
        obtain ⟨hcs, rfl⟩ := Prod.mk.inj hq
        have htext : String.ofList cs = r'.text := Except.ok.inj hcs
        have hout : asString (prepend r.chars (.ok cs, st)) = (.ok (r.append r').text, st) := by
          simp [asString, prepend, Except.map, Rendering.text, String.ofList_injective htext]
        rw [hout]
        exact .ok (hr.append hr') ht

theorem matches_expandNested {audit : String → Audit} {resolve : String → Step String}
    (h : ∀ e l st, Tracks P l st → Matches P (P e) (audit e l) (resolve e st))
    {ps : List (Piece (List Char))} (hread : ∀ inner, .span inner ∈ ps → Template.Readable inner)
    {l : Ledger} {st : State} (ht : Tracks P l st) :
    Matches P (GentleIn P ps) (auditPieces audit ps l) (asString (expandNested resolve ps st)) := by
  induction ps generalizing l st with
  | nil => exact .ok (.ofChars [] _) ht
  | cons piece rest ih =>
      have hrest : ∀ {l st}, Tracks P l st → Matches P (GentleIn P (piece :: rest))
          (auditPieces audit rest l) (asString (expandNested resolve rest st)) := fun ht =>
        (ih (fun inner hmem => hread inner (.tail _ hmem)) ht).mono GentleIn.tail
      cases piece with
      | char c =>
          have hchar := (hrest ht).before (.ofChars [c] _)
          rw [Rendering.chars_ofChars] at hchar
          exact hchar
      | span inner =>
          have hspan := (h (Template.expression inner) l st ht).mono
            fun hg : GentleIn P (.span inner :: rest) => hg inner List.mem_cons_self
          simp only [auditPieces, expandNested]
          revert hspan
          generalize audit (Template.expression inner) l = p
          generalize resolve (Template.expression inner) st = q
          rintro (@⟨r, l, st, hr, ht⟩ | @⟨err, l, st, ht⟩)
          · have hvalue := (hrest ht).before hr
            rw [← String.toList_ofList (l := r.chars)] at hvalue
            exact hvalue
          · -- what is left in the text is left in the books
            have hleave := (hrest ht).before (.leave (hread inner List.mem_cons_self) _)
            rw [Rendering.chars_leave] at hleave
            -- only the error of depth ends the text
            cases err with
            | recursionLimit text => exact .error ht
            | _ => exact hleave

theorem matches_nested (hP : Gentle b P) (room : Nat) (text : String) {l : Ledger} {st : State}
    (ht : Tracks P l st) :
    Matches P (GentleIn P (Template.pieces text)) (auditNested b s room text l)
      (nested b s room text st) := by
  induction room generalizing text l st with
  | zero =>
      simp only [auditNested, nested]
      split
      · exact .error ht
      · have hok := Matches.ok (.ofChars text.toList (GentleIn P (Template.pieces text))) ht
        rw [Rendering.text, Rendering.chars_ofChars, String.ofList_toList] at hok
        exact hok
  | succ room ih =>
      have hresolve : ∀ e l st, Tracks P l st →
          Matches P (P e) (auditWith b s (auditNested b s room) e l)
            (resolveWith b s (nested b s room) e st) := fun e _ _ ht =>
        matches_resolveWith hP (fun text _ _ ht => ih text ht) e ht
      have hread : ∀ inner, .span inner ∈ Template.pieces text → Template.Readable inner :=
        fun inner => Template.readable_of_mem_pieces
      have hm := matches_expandNested hresolve hread ht
      simp only [auditNested, nested]
      revert hm
      rcases expandNested (resolveWith b s (nested b s room)) (Template.pieces text) st
        with ⟨_ | cs, st'⟩
      · exact id
      · exact id

theorem matches_resolveTop (hP : Gentle b P) (e : String) {l : Ledger} {st : State}
    (ht : Tracks P l st) :
    Matches P (P e) (auditTop b s e l) (resolveTop b s e st) :=
  matches_resolveWith hP (fun text _ _ ht => matches_nested hP depthLimit text ht) e ht

/-- The audit of a text at the top follows its expansion. -/
theorem tracks_expand {audit : String → Audit} {resolve : String → Step String}
    (h : ∀ e l st, Tracks P l st → Matches P (P e) (audit e l) (resolve e st))
    {ps : List (Piece (List Char))} (hread : ∀ inner, .span inner ∈ ps → Template.Readable inner)
    {l : Ledger} {st : State} (ht : Tracks P l st) :
    (expand resolve ps st).1 = (auditText audit ps l).1.chars ∧
      (auditText audit ps l).1.Booked (GentleIn P ps) ∧
      Tracks P (auditText audit ps l).2 (expand resolve ps st).2 := by
  induction ps generalizing l st with
  | nil => exact ⟨rfl, .ofChars [] _, ht⟩
  | cons piece rest ih =>
      have hread' : ∀ inner, .span inner ∈ rest → Template.Readable inner :=
        fun inner hmem => hread inner (.tail _ hmem)
      cases piece with
      | char c =>
          obtain ⟨hchars, hbooked, ht'⟩ := ih hread' ht
          refine ⟨?_, (Rendering.Booked.ofChars [c] _).append (hbooked.mono GentleIn.tail), ht'⟩
          simp [expand, auditText, hchars]
      | span inner =>
          have hspan := (h (Template.expression inner) l st ht).mono
            fun hg : GentleIn P (.span inner :: rest) => hg inner List.mem_cons_self
          simp only [auditText, expand]
          revert hspan
          generalize audit (Template.expression inner) l = p
          generalize resolve (Template.expression inner) st = q
          rintro (@⟨r, l, st, hr, ht⟩ | @⟨err, l, st, ht⟩)
          · obtain ⟨hchars, hbooked, ht'⟩ := ih hread' ht
            refine ⟨?_, hr.append (hbooked.mono GentleIn.tail), ht'⟩
            simp [hchars, Rendering.text]
          · obtain ⟨hchars, hbooked, ht'⟩ := ih hread' ht
            have hleave := Rendering.Booked.leave (hread inner List.mem_cons_self)
              (GentleIn P (.span inner :: rest))
            refine ⟨?_, hleave.append (hbooked.mono GentleIn.tail), ht'⟩
            simp [hchars]

/-! ## Audits of histories -/

/-- A resolver whose cache holds renderings. -/
structure Auditor where
  bindings : Bindings
  cache : Dict Rendering

/-- Audits the processing of a text. -/
def Auditor.process (a : Auditor) (s : Surroundings) (text : String) (journal : Journal) :
    Rendering × Auditor × Journal :=
  let (r, l) := auditText (auditTop a.bindings s) (Template.pieces text) ⟨a.cache, journal⟩
  (r, { a with cache := l.cache }, l.journal)

/-- Audits an operation; what does not evaluate is done to the bindings alone. -/
def Operation.audit : Operation → Auditor × Journal → Auditor × Journal
  | .process s text, (a, journal) => (a.process s text journal).2
  | .resolve s expression, (a, journal) =>
    let (_, l) := auditTop a.bindings s (trimText expression) ⟨a.cache, journal⟩
    ({ a with cache := l.cache }, l.journal)
  | .clearCache, (a, journal) => ({ a with cache := .empty }, journal)
  | op, (a, journal) =>
    ({ a with bindings := (op.run (⟨a.bindings, .empty⟩, journal)).1.bindings }, journal)

/-- Audits operations one after the other. -/
def auditAll (ops : List Operation) (start : Auditor × Journal) : Auditor × Journal :=
  ops.foldl (fun p op => op.audit p) start

/-- An auditor and a resolver agree. -/
def Follows (P : String → Prop) (a : Auditor × Journal) (p : Resolver × Journal) : Prop :=
  p.1.bindings = a.1.bindings ∧ Tracks P ⟨a.1.cache, a.2⟩ ⟨p.1.cache, p.2⟩

theorem Matches.tracks {gentle : Prop} {p : Except LookupError Rendering × Ledger}
    {q : Except LookupError String × State} (h : Matches P gentle p q) : Tracks P p.2 q.2 := by
  cases h with
  | ok _ ht => exact ht
  | error ht => exact ht

/-- The audit of a text that is processed follows the resolver. -/
theorem Tracks.process {cache : Dict Rendering} {cache' : Dict String} {journal : Journal}
    (ht : Tracks P ⟨cache, journal⟩ ⟨cache', journal⟩) (hP : Gentle b P) (s : Surroundings)
    (text : String) :
    (Resolver.process ⟨b, cache'⟩ s text journal).1 =
        (Auditor.process ⟨b, cache⟩ s text journal).1.text ∧
      (Auditor.process ⟨b, cache⟩ s text journal).1.Booked
        (GentleIn P (Template.pieces text)) ∧
      Follows P (Auditor.process ⟨b, cache⟩ s text journal).2
        (Resolver.process ⟨b, cache'⟩ s text journal).2 := by
  have htop : ∀ e l st, Tracks P l st → Matches P (P e) (auditTop b s e l) (resolveTop b s e st) :=
    fun e _ _ ht => matches_resolveTop hP e ht
  have hread : ∀ inner, .span inner ∈ Template.pieces text → Template.Readable inner :=
    fun inner => Template.readable_of_mem_pieces
  obtain ⟨hchars, hbooked, ht'⟩ := tracks_expand htop hread ht
  simp only [Resolver.process, Auditor.process]
  exact ⟨congrArg String.ofList hchars, hbooked, rfl, ht'⟩

/-- So does the audit of an expression that is asked for. -/
theorem Tracks.resolve {cache : Dict Rendering} {cache' : Dict String} {journal : Journal}
    (ht : Tracks P ⟨cache, journal⟩ ⟨cache', journal⟩) (hP : Gentle b P) (s : Surroundings)
    (expression : String) :
    Follows P (Operation.audit (.resolve s expression) (⟨b, cache⟩, journal))
      (Operation.run (.resolve s expression) (⟨b, cache'⟩, journal)) := by
  have hm := (matches_resolveTop (s := s) hP (trimText expression) ht).tracks
  simp only [Operation.audit, Operation.run, resolveExpression]
  exact ⟨rfl, hm⟩

theorem follows_run {a : Auditor × Journal} {p : Resolver × Journal}
    (hP : Gentle p.1.bindings P) (h : Follows P a p) (op : Operation) :
    Follows P (op.audit a) (op.run p) := by
  obtain ⟨⟨b, cache⟩, journal⟩ := a
  obtain ⟨⟨b', cache'⟩, journal'⟩ := p
  obtain ⟨hb, ht⟩ := h
  obtain rfl : journal' = journal := ht.journal
  obtain rfl : b' = b := hb
  cases op with
  | process s text => exact (ht.process hP s text).2.2
  | resolve s expression => exact ht.resolve hP s expression
  -- what does not evaluate is done to both bindings and to no cache
  | declare name value => exact ⟨rfl, ht⟩
  | setVariable name value => exact ⟨rfl, ht⟩
  | setResponse name response => exact ⟨rfl, ht⟩
  | clearCache => exact ⟨rfl, .empty journal'⟩

/-- The audit of a history follows it, as long as the property goes down in all that names stand
for on the way. -/
theorem follows_runAll (allowed : Bindings → Prop) (hP : ∀ b, allowed b → Gentle b P)
    (ops : List Operation)
    (hops : ∀ op ∈ ops, ∀ p, allowed p.1.bindings → allowed (op.run p).1.bindings)
    {a : Auditor × Journal} {p : Resolver × Journal} (h : Follows P a p)
    (hp : allowed p.1.bindings) :
    Follows P (auditAll ops a) (runAll ops p) ∧ allowed (runAll ops p).1.bindings := by
  induction ops generalizing a p with
  | nil => exact ⟨h, hp⟩
  | cons op ops ih =>
      exact ih (fun op' hmem => hops op' (List.mem_cons_of_mem _ hmem))
        (follows_run (hP _ hp) h op) (hops op List.mem_cons_self p hp)

/-- A text is audited as it is processed, at any time. -/
theorem Follows.process {a : Auditor × Journal} {p : Resolver × Journal} (h : Follows P a p)
    (hP : Gentle p.1.bindings P) (s : Surroundings) (text : String) (journal : Journal) :
    (p.1.process s text journal).1 = (a.1.process s text journal).1.text ∧
      (a.1.process s text journal).1.Booked (GentleIn P (Template.pieces text)) := by
  obtain ⟨⟨b, cache⟩, journal₁⟩ := a
  obtain ⟨⟨b', cache'⟩, journal₂⟩ := p
  obtain ⟨hb, ht⟩ := h
  obtain rfl : b' = b := hb
  have ht' : Tracks P ⟨cache, journal⟩ ⟨cache', journal⟩ := ⟨rfl, ht.value, ht.booked⟩
  obtain ⟨htext, hbooked, -⟩ := ht'.process hP s text
  exact ⟨htext, hbooked⟩

/-- After every history, a text is audited as it is processed. -/
theorem process_audited (b : Bindings) (ops : List Operation) (journal₀ : Journal)
    (s : Surroundings) (text : String) (journal : Journal) :
    ((runAll ops (⟨b, .empty⟩, journal₀)).1.process s text journal).1 =
        ((auditAll ops (⟨b, .empty⟩, journal₀)).1.process s text journal).1.text ∧
      ((auditAll ops (⟨b, .empty⟩, journal₀)).1.process s text journal).1.Sound := by
  -- a property of no expression asks nothing of what names stand for
  have hP : ∀ b : Bindings, Gentle b fun _ => False := fun _ =>
    ⟨fun h => h.elim, fun h => h.elim⟩
  have hstart : Follows (fun _ => False) ((⟨b, .empty⟩ : Auditor), journal₀)
      ((⟨b, .empty⟩ : Resolver), journal₀) := ⟨rfl, .empty journal₀⟩
  obtain ⟨hall, -⟩ := follows_runAll (fun _ => True) (fun b _ => hP b) ops
    (fun _ _ _ _ => trivial) hstart trivial
  obtain ⟨htext, hbooked⟩ := hall.process (hP _) s text journal
  exact ⟨htext, hbooked.1⟩

/-- The same for a resolver that was not used before. -/
theorem process_audited_new (b : Bindings) (s : Surroundings) (text : String)
    (journal : Journal) :
    (Resolver.process ⟨b, .empty⟩ s text journal).1 =
        (Auditor.process ⟨b, .empty⟩ s text journal).1.text ∧
      (Auditor.process ⟨b, .empty⟩ s text journal).1.Sound :=
  process_audited b [] journal s text journal

/-! ## Percent signs in front of variables -/

/-- An expression without a percent sign, or one that names no variable. -/
def Bindings.KeepsValue (b : Bindings) (e : String) : Prop :=
  (stripPercent e).2 = true → b.template? (stripPercent e).1 = none

/-- No percent sign stands in front of the name of a variable where a template is evaluated. -/
def Bindings.KeepsValues (b : Bindings) (text : String) : Prop := b.Everywhere b.KeepsValue text

theorem gentle_keepsValue (b : Bindings) : Gentle b (b.EverywhereAt b.KeepsValue) where
  not_encoded := by
    intro e template h htemplate
    cases hencoded : (stripPercent e).2 with
    | false => rfl
    | true =>
        rw [h.1 hencoded] at htemplate
        cases htemplate
  down := fun h htemplate hmem => (h.2 _ htemplate).at hmem

/-- Where no percent sign stands in front of a variable, nothing is lost. -/
theorem lost_eq_nil_of_keepsValues (b : Bindings) {ops : List Operation}
    (hops : ∀ op ∈ ops, op.Reads fun _ => True) (journal₀ : Journal) (s : Surroundings)
    {text : String} (h : b.KeepsValues text) (journal : Journal) :
    ((auditAll ops (⟨b, .empty⟩, journal₀)).1.process s text journal).1.lost = [] := by
  have hP : ∀ b', b' = b → Gentle b' (b.EverywhereAt b.KeepsValue) := by
    rintro b' rfl
    exact gentle_keepsValue b'
  have hstart : Follows (b.EverywhereAt b.KeepsValue) ((⟨b, .empty⟩ : Auditor), journal₀)
      ((⟨b, .empty⟩ : Resolver), journal₀) := ⟨rfl, .empty journal₀⟩
  obtain ⟨hall, hb⟩ := follows_runAll (· = b) hP ops
    (fun op hmem p hp => ((hops op hmem).bindings_run p).trans hp) hstart rfl
  exact (hall.process (hP _ hb) s text journal).2.2 fun inner hmem => h.at hmem

theorem lost_eq_nil_new {b : Bindings} (s : Surroundings) {text : String}
    (h : b.KeepsValues text) (journal : Journal) :
    (Auditor.process ⟨b, .empty⟩ s text journal).1.lost = [] :=
  lost_eq_nil_of_keepsValues b (fun _ hmem => absurd hmem List.not_mem_nil) [] s h journal

end Stencil.Resolver
