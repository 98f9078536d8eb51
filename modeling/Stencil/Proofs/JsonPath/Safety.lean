import Mathlib
import Stencil.Proofs.JsonPath.Octets
import Stencil.Proofs.JsonPath.Walk
import Stencil.Proofs.Text.Blank

/-!
# Safety of extraction

Extraction can be done octet by octet, where every value is a range of offsets and its text is what
stands in the range. That this fails nowhere and gives what extraction gives is `extract_safe`. The
invariant behind it is `At`: every offset that a look-up uses is in front of a character of the
text or at its end. Then a range that is handed on is that of a part of the text (`Agrees`), and
the look-ups by characters find the same part.
-/

namespace Stencil.JsonPath.Octets

open Text

/-! ## Offsets in a text -/

/-- An offset in a text lies in front of `rest`. -/
def At (text : List Char) (i : Nat) (rest : List Char) : Prop :=
  ∃ front, text = front ++ rest ∧ i = (utf8 front).length

variable {text cs : List Char} {i : Nat}

theorem At.start (text : List Char) : At text 0 text := ⟨[], rfl, rfl⟩

theorem At.append {front rest : List Char} (h : At text i (front ++ rest)) :
    At text (i + (utf8 front).length) rest := by
  obtain ⟨before, rfl, rfl⟩ := h
  refine ⟨before ++ front, ?_, ?_⟩
  · rw [List.append_assoc]
  · rw [utf8_append, List.length_append]

theorem At.char {c : Char} (h : At text i (c :: cs)) :
    At text (i + (String.utf8EncodeChar c).length) cs := by
  rw [← List.singleton_append] at h
  simpa using h.append

theorem At.drop (h : At text i cs) : (utf8 text).drop i = utf8 cs := by
  obtain ⟨front, rfl, rfl⟩ := h
  rw [utf8_append, List.drop_left]

theorem At.skipBlanks (h : At text i cs) :
    At text (skipBlanks (utf8 text) i) (JsonPath.skipBlanks cs) := by
  have hsplit : cs = cs.takeWhile isAsciiBlank ++ JsonPath.skipBlanks cs :=
    List.takeWhile_append_dropWhile.symm
  rw [skipBlanks_utf8 h.drop]
  rw [hsplit] at h
  exact h.append

/-- The octet at an offset looks like the character there. -/
theorem At.looks (h : At text i cs) {m : Char} (hm : m.toNat < 128) :
    ((utf8 text)[i]?).any (is m) = cs.head?.any (· == m) ∧
      ((utf8 text)[i]?).all (is m) = cs.head?.all (· == m) := by
  rw [getElem?_eq_head?, h.drop]
  exact head?_looks hm cs

/-! ## Ranges and values -/

/-- A range and a value agree: the value is not empty and stands in the text in that range. Errors
agree if they are the same. -/
inductive Agrees (text : List Char) :
    Except Failure (Nat × Nat) → Except Error (List Char) → Prop
  | error (e : Error) : Agrees text (.error (.error e)) (.error e)
  | value (front value back : List Char) (htext : text = front ++ value ++ back)
      (hne : value ≠ []) :
      Agrees text (.ok ((utf8 front).length, (utf8 (front ++ value)).length)) (.ok value)

theorem At.agrees {value rest : List Char} (h : At text i (value ++ rest)) (hne : value ≠ []) :
    Agrees text (.ok (range i (value, rest))) (.ok value) := by
  obtain ⟨front, rfl, rfl⟩ := h
  have hstop : stop (utf8 front).length (value, rest) = (utf8 (front ++ value)).length := by
    rw [stop, utf8_append, List.length_append]
  rw [range, hstop]
  exact .value front value rest (List.append_assoc front value rest).symm hne

/-- Either both scans of a value find none, or they find the same and go on at the same place. -/
theorem At.value? (h : At text i cs) :
    (JsonPath.value? cs = none ∧ Octets.value? (utf8 text) i = .ok none) ∨
      ∃ value rest range, JsonPath.value? cs = some (value, rest) ∧
        Octets.value? (utf8 text) i = .ok (some range) ∧ Agrees text (.ok range) (.ok value) ∧
        At text range.2 rest := by
  have hoctets := value?_utf8 h.drop
  cases hvalue : JsonPath.value? cs with
  | none =>
      rw [hvalue] at hoctets
      exact .inl ⟨rfl, hoctets⟩
  | some parts =>
      rw [hvalue] at hoctets
      obtain ⟨value, rest⟩ := parts
      obtain ⟨hsplit, hne⟩ := eq_append_of_value? hvalue
      have hskip : JsonPath.skipBlanks cs = value ++ rest := by
        have htake : cs.takeWhile isAsciiBlank ++ JsonPath.skipBlanks cs = cs :=
          List.takeWhile_append_dropWhile
        rw [List.append_assoc] at hsplit
        exact List.append_cancel_left (htake.trans hsplit)
      have hstart := h.skipBlanks
      rw [hskip] at hstart
      exact .inr ⟨value, rest, _, rfl, hoctets, hstart.agrees hne, hstart.append⟩

/-! ## Occurrences of a quoted name -/

/-- The octets of an occurrence are passed over. -/
theorem occurrences_skip (mark front r : List UInt8) (i : Nat) :
    occurrences mark front.length i (front ++ r) = occurrences mark 0 (i + front.length) r := by
  induction front generalizing i with
  | nil => rfl
  | cons b front ih =>
      rw [List.cons_append, List.length_cons, occurrences, ih, Nat.add_right_comm, Nat.add_assoc]

theorem occurrences_append {mark : List UInt8} (hne : mark ≠ []) (r : List UInt8) (i : Nat) :
    occurrences mark 0 i (mark ++ r) = i :: occurrences mark 0 (i + mark.length) r := by
  obtain ⟨b, m, rfl⟩ := List.exists_cons_of_ne_nil hne
  have hprefix : (b :: m).isPrefixOf (b :: (m ++ r)) = true :=
    List.isPrefixOf_iff_prefix.2 (List.prefix_append (b :: m) r)
  rw [List.cons_append, occurrences, if_pos hprefix]
  have hlength : (b :: m).length - 1 = m.length := rfl
  rw [hlength, occurrences_skip, List.length_cons, Nat.add_right_comm, Nat.add_assoc]

variable {name : List Char}

theorem utf8_quoted (name : List Char) :
    utf8 (quoted name) = '"'.toUInt8 :: utf8 (name ++ ['"']) :=
  utf8_cons_of_lt (by decide) _

/-- No occurrence begins at a high octet. -/
theorem occurrences_high {high r : List UInt8} (hhigh : ∀ x ∈ high, IsHigh x) (i : Nat) :
    occurrences (utf8 (quoted name)) 0 i (high ++ r) =
      occurrences (utf8 (quoted name)) 0 (i + high.length) r := by
  induction high generalizing i with
  | nil => rfl
  | cons b high ih =>
      obtain ⟨hb, hrest⟩ := List.forall_mem_cons.1 hhigh
      have hprefix : ¬ (utf8 (quoted name)).isPrefixOf (b :: (high ++ r)) = true := by
        rw [List.isPrefixOf_iff_prefix, utf8_quoted, List.cons_prefix_cons]
        rintro ⟨rfl, -⟩
        exact absurd (show 128 ≤ '"'.toUInt8.toNat from hb) (by decide)
      rw [List.cons_append, occurrences, if_neg hprefix, ih hrest, List.length_cons,
        Nat.add_right_comm, Nat.add_assoc]

/-- No occurrence begins at a character where the text does not go on with the quoted name. -/
theorem occurrences_char {c : Char} (h : ¬ quoted name <+: c :: cs) (i : Nat) :
    occurrences (utf8 (quoted name)) 0 i (utf8 (c :: cs)) =
      occurrences (utf8 (quoted name)) 0 (i + (String.utf8EncodeChar c).length) (utf8 cs) := by
  have hprefix : ¬ (utf8 (quoted name)).isPrefixOf (utf8 (c :: cs)) = true := by
    rw [List.isPrefixOf_iff_prefix]
    exact fun hutf8 => h (utf8_prefix_utf8 hutf8)
  obtain ⟨b, high, heq, hhigh, -, -⟩ := exists_octets c
  rw [utf8_cons, heq, List.cons_append] at hprefix ⊢
  rw [occurrences, if_neg hprefix, occurrences_high hhigh, List.length_cons,
    Nat.add_right_comm, Nat.add_assoc]

/-- Both searches stop at the same colon. -/
theorem At.colonBehind? (name : List Char) (h : At text i cs) :
    Option.Rel (fun k value => At text (k + 1) value)
      (colonBehind? (utf8 text) (utf8 (quoted name))
        (occurrences (utf8 (quoted name)) 0 i (utf8 cs)))
      (afterName? (quoted name) 0 cs) := by
  induction hlength : cs.length using Nat.strongRecOn generalizing cs i with
  | ind n ih =>
    cases cs with
    | nil => exact .none
    | cons c r =>
      have hr : r.length < n := by
        rw [← hlength, List.length_cons]
        omega
      cases hstrip : stripPrefix? (quoted name) (c :: r) with
      | none =>
          have hprefix : ¬ quoted name <+: c :: r := by
            rintro ⟨rest, hrest⟩
            rw [← hrest, stripPrefix?_append] at hstrip
            cases hstrip
          rw [afterName?, hstrip, occurrences_char hprefix]
          exact ih r.length hr h.char rfl
      | some rest =>
          -- Without a colon the searches go on behind the occurrence and not behind its first
          -- character, which is why the induction is on the length.
          have hsplit := eq_append_of_stripPrefix? hstrip
          have hlast : r = (name ++ ['"']) ++ rest := (List.cons.inj hsplit).2
          have hless : rest.length < n := by
            rw [hlast, List.length_append] at hr
            omega
          have hrest : At text (i + (utf8 (quoted name)).length) rest := by
            rw [hsplit] at h
            exact h.append
          have hne : utf8 (quoted name) ≠ [] := by
            rw [utf8_quoted]
            exact List.cons_ne_nil _ _
          have hcolon := (hrest.skipBlanks.looks (show ':'.toNat < 128 by decide)).1
          rw [hsplit, utf8_append, occurrences_append hne, Octets.colonBehind?, List.map_cons,
            List.find?_cons, hcolon, ← Octets.colonBehind?, ← hsplit]
          by_cases hskip : ∃ value, JsonPath.skipBlanks rest = ':' :: value
          · obtain ⟨value, hskip⟩ := hskip
            have hvalue := hrest.skipBlanks
            rw [hskip] at hvalue
            rw [hskip, afterName?_eq_some hstrip hskip]
            exact .some hvalue.char
          · have hhead : (JsonPath.skipBlanks rest).head?.any (· == ':') = false := by
              cases hrestSkip : JsonPath.skipBlanks rest with
              | nil => rfl
              | cons d value =>
                  have hd : d ≠ ':' := fun heq => hskip ⟨value, heq ▸ hrestSkip⟩
                  exact beq_eq_false_iff_ne.2 hd
            rw [hhead, afterName?_of_ne hstrip fun value heq => hskip ⟨value, heq⟩]
            exact ih rest.length hless hrest rfl

theorem octets_eq (text : String) : octets text = utf8 text.toList := by
  rw [← octets_ofList, String.ofList_toList]

/-- The two look-ups of a field agree. -/
theorem field_agrees (text name : String) :
    Agrees text.toList (field text name) (JsonPath.field name.toList text.toList) := by
  have hquoted : ("\"" ++ name ++ "\"").toList = quoted name.toList := by
    rw [String.toList_append, String.toList_append]
    rfl
  have hcolon := (At.start text.toList).colonBehind? name.toList
  rw [field, colon?, octets_eq, octets_eq, hquoted, JsonPath.field, ← quoted,
    String.ofList_toList]
  generalize colonBehind? _ _ _ = colon at hcolon ⊢
  generalize afterName? _ _ _ = behind at hcolon ⊢
  cases hcolon with
  | none => exact .error _
  | some hbehind =>
      dsimp only
      rcases hbehind.value? with
        ⟨hnone, hoctets⟩ | ⟨value, rest, range, hvalue, hoctets, hagrees, -⟩
      · rw [hnone, hoctets]
        exact .error _
      · rw [hvalue, hoctets]
        exact hagrees

/-! ## Items -/

/-- What `item` does behind an item. -/
def itemFrom (name : String) (shown : Nat) (bytes : List UInt8) (range : Nat × Nat) :
    (index : Nat) → Except Failure (Nat × Nat)
  | 0 => pure range
  | index + 1 => behindComma name shown bytes range.2 >>= item name shown bytes index

theorem item_eq (name : String) (shown : Nat) (bytes : List UInt8) (index i : Nat) :
    item name shown bytes index i =
      itemAt name shown bytes i >>= fun range => itemFrom name shown bytes range index := by
  cases index with
  | zero =>
      rw [item]
      cases itemAt name shown bytes i <;> rfl
  | succ index => rfl

/-- Either both walks stop at an item with the same error, or they take the same item and go on at
the same place. -/
theorem At.itemAt (name : String) (shown : Nat) (h : At text i cs) :
    (∃ e, itemAt name shown (utf8 text) i = .error (.error e) ∧
      ∀ index, JsonPath.item name shown index cs = .error e) ∨
      ∃ value rest range, Octets.itemAt name shown (utf8 text) i = .ok range ∧
        Agrees text (.ok range) (.ok value) ∧ At text range.2 rest ∧
        ∀ index, JsonPath.item name shown index cs = itemBehind name shown value rest index := by
  have hstart := h.skipBlanks
  have hall := (hstart.looks (show ']'.toNat < 128 by decide)).2
  rw [Octets.itemAt, hall]
  cases hskip : JsonPath.skipBlanks cs with
  | nil =>
      refine .inl ⟨.outOfBounds shown name, rfl, ?_⟩
      intro index
      rw [JsonPath.item, hskip]
  | cons c r =>
      rw [hskip] at hstart
      by_cases hclosing : c = ']'
      · subst hclosing
        refine .inl ⟨.outOfBounds shown name, rfl, ?_⟩
        intro index
        rw [JsonPath.item, hskip]
        rfl
      · have hitem := item_of_ne hskip hclosing name shown
        have hhead : (c :: r).head?.all (· == ']') = false := beq_eq_false_iff_ne.2 hclosing
        rw [hhead]
        rcases hstart.value? with
          ⟨hnone, hoctets⟩ | ⟨value, rest, range, hvalue, hoctets, hagrees, hrest⟩
        · rw [hoctets]
          refine .inl ⟨.notArray name, rfl, ?_⟩
          intro index
          rw [hitem, hnone]
        · rw [hoctets]
          refine .inr ⟨value, rest, range, rfl, hagrees, hrest, ?_⟩
          intro index
          rw [hitem, hvalue]

/-- Behind an item, both walks stop with the same error or go on behind a comma. -/
theorem At.itemBehind {rest : List Char} (name : String) (shown index : Nat) (range : Nat × Nat)
    (value : List Char) (h : At text range.2 rest)
    (hitem : ∀ {j cs}, At text j cs → Agrees text (item name shown (utf8 text) index j)
      (JsonPath.item name shown index cs)) :
    Agrees text (itemFrom name shown (utf8 text) range (index + 1))
      (itemBehind name shown value rest (index + 1)) := by
  have hbehind := h.skipBlanks
  have hcomma := (hbehind.looks (show ','.toNat < 128 by decide)).1
  have hclosing := (hbehind.looks (show ']'.toNat < 128 by decide)).2
  rw [itemFrom, behindComma, hcomma, hclosing]
  cases hskip : JsonPath.skipBlanks rest with
  | nil =>
      rw [JsonPath.itemBehind, hskip]
      exact .error _
  | cons c r =>
      rw [hskip] at hbehind
      by_cases hc : c = ','
      · subst hc
        rw [JsonPath.itemBehind, hskip]
        exact hitem hbehind.char
      have hnext : (c :: r).head?.any (· == ',') = false := beq_eq_false_iff_ne.2 hc
      rw [hnext]
      by_cases hend : c = ']'
      · subst hend
        rw [JsonPath.itemBehind, hskip]
        exact .error _
      · have hlast : (c :: r).head?.all (· == ']') = false := beq_eq_false_iff_ne.2 hend
        rw [hlast, itemBehind_of_ne hskip hc hend]
        exact .error _

theorem item_agrees (name : String) (shown index : Nat) (h : At text i cs) :
    Agrees text (item name shown (utf8 text) index i) (JsonPath.item name shown index cs) := by
  induction index generalizing i cs with
  | zero =>
      rw [item_eq]
      rcases h.itemAt name shown with
        ⟨e, hoctets, hchars⟩ | ⟨value, rest, range, hoctets, hagrees, -, hchars⟩
      · rw [hoctets, hchars]
        exact .error e
      · rw [hoctets, hchars]
        exact hagrees
  | succ index ih =>
      rw [item_eq]
      rcases h.itemAt name shown with
        ⟨e, hoctets, hchars⟩ | ⟨value, rest, range, hoctets, -, hrest, hchars⟩
      · rw [hoctets, hchars]
        exact .error e
      · rw [hoctets, hchars]
        exact hrest.itemBehind name shown index range value ih

/-- The two look-ups of an item agree. -/
theorem element_agrees (text name : String) (index : Nat) :
    Agrees text.toList (element text name index)
      (JsonPath.element name.toList index text.toList) := by
  have hstart := (At.start text.toList).skipBlanks
  have hopening := (hstart.looks (show '['.toNat < 128 by decide)).1
  rw [element, octets_eq, hopening]
  cases hskip : JsonPath.skipBlanks text.toList with
  | nil =>
      rw [JsonPath.element, hskip, String.ofList_toList]
      exact .error _
  | cons c r =>
      rw [hskip] at hstart
      by_cases hc : c = '['
      · subst hc
        rw [JsonPath.element, hskip, String.ofList_toList]
        exact item_agrees name index index hstart.char
      · have hhead : (c :: r).head?.any (· == '[') = false := beq_eq_false_iff_ne.2 hc
        rw [hhead, element_of_ne hskip hc, String.ofList_toList]
        exact .error _

/-! ## Extraction -/

theorem part_append (front value back : List Char) :
    part (String.ofList (front ++ value ++ back))
      ((utf8 front).length, (utf8 (front ++ value)).length) = .ok (String.ofList value) := by
  have hstart : String.Pos.Raw.IsValid (String.ofList (front ++ value ++ back))
      ⟨(utf8 front).length⟩ := by
    rw [List.append_assoc]
    exact isValid_ofList front (value ++ back)
  have hstop := isValid_ofList (front ++ value) back
  have hle : (utf8 front).length ≤ (utf8 (front ++ value)).length := by
    rw [utf8_append, List.length_append]
    exact Nat.le_add_right _ _
  rw [part, dif_pos ⟨hstart, hstop, hle⟩]
  exact congrArg Except.ok (copy_slice_ofList front value back hstart hstop hle)

/-- What the scan of octets makes of the outcome of the scan of characters. -/
def outcome (value : Except Error (List Char)) : Except Failure String :=
  (value.map String.ofList).mapError Failure.error

theorem outcome_bind {f : String → Except Failure String}
    {g : List Char → Except Error (List Char)} (h : ∀ cs, f (String.ofList cs) = outcome (g cs))
    (value : Except Error (List Char)) : (outcome value >>= f) = outcome (value >>= g) := by
  cases value with
  | error e => rfl
  | ok cs => exact h cs

theorem Agrees.part {range : Except Failure (Nat × Nat)} {value : Except Error (List Char)}
    (h : Agrees text range value) : (range >>= part (String.ofList text)) = outcome value := by
  cases h with
  | error e => rfl
  | value front value back htext hne =>
      subst htext
      exact part_append front value back

theorem atIndex_eq (segment : Segment) (cs : List Char) :
    atIndex (String.ofList segment.field) segment.index (String.ofList cs) =
      outcome (match segment.index with
        | none => .ok cs
        | some index => JsonPath.element segment.field index cs) := by
  cases segment.index with
  | none => rfl
  | some index =>
      have hagrees := element_agrees (String.ofList cs) (String.ofList segment.field) index
      rw [String.toList_ofList, String.toList_ofList] at hagrees
      exact hagrees.part

theorem step_eq (segment : Segment) (cs : List Char) :
    step segment (String.ofList cs) = outcome (JsonPath.step segment cs) := by
  rw [step, JsonPath.step]
  split
  next hempty => exact atIndex_eq segment cs
  next hne =>
    have hfield := field_agrees (String.ofList cs) (String.ofList segment.field)
    rw [String.toList_ofList, String.toList_ofList] at hfield
    have hbind := outcome_bind (atIndex_eq segment) (JsonPath.field segment.field cs)
    rw [← hfield.part, bind_assoc] at hbind
    exact hbind

theorem follow_eq (segments : List Segment) (cs : List Char) :
    follow segments (String.ofList cs) = outcome (JsonPath.follow segments cs) := by
  induction segments generalizing cs with
  | nil => rfl
  | cons segment rest ih =>
      rw [follow, step_eq]
      exact outcome_bind ih (JsonPath.step segment cs)

/-- Quotes are stripped if there are two of them; one quote alone is both the first character and
the last. -/
theorem stripQuotes_cases (cs : List Char) :
    (∃ inner, cs = '"' :: (inner ++ ['"']) ∧ JsonPath.stripQuotes cs = inner) ∨
      ((cs.head?.any (· == '"') = true → cs.getLast?.any (· == '"') = true → cs = ['"']) ∧
        JsonPath.stripQuotes cs = cs) := by
  unfold JsonPath.stripQuotes
  split
  next r =>
    by_cases hlast : r.getLast? = some '"'
    · obtain ⟨inner, rfl⟩ := List.getLast?_eq_some_iff.1 hlast
      refine .inl ⟨inner, rfl, ?_⟩
      rw [if_pos hlast, List.dropLast_concat]
    · refine .inr ⟨?_, if_neg hlast⟩
      intro _ hend
      cases r with
      | nil => rfl
      | cons d r =>
          rw [List.getLast?_cons_cons] at hend
          cases hget : (d :: r).getLast? with
          | none =>
              rw [hget] at hend
              cases hend
          | some c =>
              rw [hget] at hend hlast
              exact absurd (congrArg some (beq_iff_eq.1 hend)) hlast
  next hquote =>
    refine .inr ⟨?_, rfl⟩
    intro hhead
    cases cs with
    | nil => cases hhead
    | cons c r =>
        obtain rfl : c = '"' := beq_iff_eq.1 hhead
        exact absurd rfl (hquote r)

/-- A text has quotes around it if its octets have. -/
theorem stripQuotes_eq (cs : List Char) :
    stripQuotes (String.ofList cs) = outcome (.ok (JsonPath.stripQuotes cs)) := by
  have hquote : utf8 ['"'] = ['"'.toUInt8] := utf8_cons_of_lt (by decide) []
  rw [stripQuotes, octets_ofList, (head?_looks (by decide) cs).1, getLast?_looks (by decide) cs]
  rcases stripQuotes_cases cs with ⟨inner, rfl, hinner⟩ | ⟨halone, hsame⟩
  · have hlength : (utf8 ('"' :: (inner ++ ['"']))).length = (utf8 inner).length + 2 := by
      rw [utf8_cons_of_lt (by decide), utf8_append, hquote, List.length_cons, List.length_append]
      rfl
    have hend : ('"' :: (inner ++ ['"'])).getLast?.any (· == '"') = true := by
      rw [← List.cons_append, List.getLast?_concat]
      rfl
    have hpart := part_append ['"'] inner ['"']
    rw [utf8_append, hquote] at hpart
    rw [hlength, if_pos ⟨Nat.le_add_left _ _, rfl, hend⟩, hinner]
    exact hpart
  · rw [hsame, if_neg]
    · rfl
    · rintro ⟨htwo, hhead, hend⟩
      rw [halone hhead hend, hquote] at htwo
      exact absurd htwo (by decide)

/-- Extraction octet by octet is extraction. -/
theorem extract_eq (body path : String) :
    extract body path = (JsonPath.extract body path).mapError Failure.error := by
  rw [extract, JsonPath.extract]
  cases parse path.toList with
  | error e => rfl
  | ok segments =>
      have hbind := outcome_bind stripQuotes_eq (JsonPath.follow segments (trim body.toList))
      rw [← follow_eq] at hbind
      refine hbind.trans ?_
      show _ = Except.mapError Failure.error
        (JsonPath.follow segments (trim body.toList) >>= fun value => pure _)
      cases JsonPath.follow segments (trim body.toList) <;> rfl

/-! ## Parts of the body -/

/-- What is found, if anything, is a part of a text. -/
def Within (cs : List Char) (found : Except Error (List Char)) : Prop :=
  ∀ value, found = .ok value → value <:+: cs

theorem within_ok (cs : List Char) : Within cs (.ok cs) := by
  rintro value ⟨⟩
  exact List.infix_rfl

theorem Within.bind {found : Except Error (List Char)}
    {next : List Char → Except Error (List Char)} (h : Within cs found)
    (hnext : ∀ value, Within value (next value)) : Within cs (found >>= next) := by
  intro result hresult
  cases found with
  | error e => cases hresult
  | ok value => exact (hnext value result hresult).trans (h value rfl)

theorem Agrees.within {range : Except Failure (Nat × Nat)} {found : Except Error (List Char)}
    (h : Agrees text range found) : Within text found := by
  intro value hvalue
  cases h with
  | error e => cases hvalue
  | value front value' back htext hne =>
      cases hvalue
      exact ⟨front, back, htext.symm⟩

theorem within_field (name cs : List Char) : Within cs (JsonPath.field name cs) := by
  have hagrees := field_agrees (String.ofList cs) (String.ofList name)
  rw [String.toList_ofList, String.toList_ofList] at hagrees
  exact hagrees.within

theorem within_element (name : List Char) (index : Nat) (cs : List Char) :
    Within cs (JsonPath.element name index cs) := by
  have hagrees := element_agrees (String.ofList cs) (String.ofList name) index
  rw [String.toList_ofList, String.toList_ofList] at hagrees
  exact hagrees.within

theorem within_step (segment : Segment) (cs : List Char) :
    Within cs (JsonPath.step segment cs) := by
  have hindex : ∀ value, Within value (match segment.index with
      | none => .ok value
      | some index => JsonPath.element segment.field index value) := by
    intro value
    cases segment.index with
    | none => exact within_ok value
    | some index => exact within_element segment.field index value
  rw [JsonPath.step]
  split
  · exact (within_ok cs).bind hindex
  · exact (within_field segment.field cs).bind hindex

theorem within_follow (segments : List Segment) (cs : List Char) :
    Within cs (JsonPath.follow segments cs) := by
  induction segments generalizing cs with
  | nil => exact within_ok cs
  | cons segment rest ih => exact (within_step segment cs).bind ih

theorem isInfix_stripQuotes (cs : List Char) : JsonPath.stripQuotes cs <:+: cs := by
  rcases stripQuotes_cases cs with ⟨inner, rfl, hinner⟩ | ⟨-, hsame⟩
  · rw [hinner]
    exact ⟨['"'], ['"'], rfl⟩
  · rw [hsame]

/-- What is extracted from a body is a part of it. -/
theorem isInfix_of_extract {body path result : String}
    (h : JsonPath.extract body path = .ok result) :
    ∃ front back : String, body = front ++ result ++ back := by
  rw [JsonPath.extract] at h
  cases hparse : parse path.toList with
  | error e =>
      rw [hparse] at h
      cases h
  | ok segments =>
      rw [hparse] at h
      change (JsonPath.follow segments (trim body.toList) >>= fun value => pure _) = _ at h
      cases hfollow : JsonPath.follow segments (trim body.toList) with
      | error e =>
          rw [hfollow] at h
          cases h
      | ok value =>
          rw [hfollow] at h
          cases h
          have hvalue := (isInfix_stripQuotes value).trans (within_follow _ _ value hfollow)
          obtain ⟨front, back, hbody⟩ := hvalue.trans (isInfix_trim body.toList)
          refine ⟨String.ofList front, String.ofList back, ?_⟩
          rw [← String.ofList_append, ← String.ofList_append, hbody, String.ofList_toList]

/-! ## Safety -/

/-- A look-up in a text hands on the range of a part of the text that is not empty, or an error of
the path. -/
def HandsOn (text : String) (found : Except Failure (Nat × Nat)) : Prop :=
  (∃ e, found = .error (.error e)) ∨ ∃ start stop, found = .ok (start, stop) ∧
    start < stop ∧ stop ≤ text.utf8ByteSize ∧
    String.Pos.Raw.IsValid text ⟨start⟩ ∧ String.Pos.Raw.IsValid text ⟨stop⟩

theorem Agrees.handsOn {text : String} {range : Except Failure (Nat × Nat)}
    {value : Except Error (List Char)} (h : Agrees text.toList range value) :
    HandsOn text range := by
  cases h with
  | error e => exact .inl ⟨e, rfl⟩
  | value front value back htext hne =>
      obtain ⟨c, cs, rfl⟩ := List.exists_cons_of_ne_nil hne
      obtain ⟨b, high, heq, -⟩ := exists_octets c
      have hbody : text = String.ofList (front ++ (c :: cs) ++ back) := by
        rw [← htext, String.ofList_toList]
      refine .inr ⟨_, _, rfl, ?_, ?_, ?_, ?_⟩
      · rw [utf8_append, utf8_cons, heq, List.length_append, List.length_append, List.length_cons]
        omega
      · rw [hbody, utf8ByteSize_ofList, utf8_append (front ++ c :: cs), List.length_append]
        exact Nat.le_add_right _ _
      · rw [hbody, List.append_assoc]
        exact isValid_ofList front _
      · rw [hbody]
        exact isValid_ofList _ back

/-- From one item to the next the walk over an array gets ahead, and stays in the text. -/
theorem lt_of_behindComma {name : String} {shown i start stop j : Nat} {bytes : List UInt8}
    (hitem : itemAt name shown bytes i = .ok (start, stop))
    (hcomma : behindComma name shown bytes stop = .ok j) :
    i ≤ start ∧ start < stop ∧ stop < j ∧ j ≤ bytes.length := by
  have hskip : ∀ k, k ≤ skipBlanks bytes k := fun k => Nat.le_add_right k _
  have hrange : i ≤ start ∧ start < stop := by
    obtain ⟨range?, hvalue, hbounds⟩ := exists_value? bytes (skipBlanks bytes i)
    rw [itemAt, hvalue] at hitem
    split at hitem
    · cases hitem
    cases range? with
    | none => cases hitem
    | some range =>
        cases hitem
        have hbound : skipBlanks bytes (skipBlanks bytes i) = start ∧ start < stop ∧ _ :=
          hbounds _ rfl
        have hfirst := hskip i
        have hsecond := hskip (skipBlanks bytes i)
        omega
  -- Where a comma is found, there is an octet.
  have hend : skipBlanks bytes stop < bytes.length ∧ j = skipBlanks bytes stop + 1 := by
    rw [behindComma] at hcomma
    split at hcomma
    next hany =>
      cases hcomma
      refine ⟨?_, rfl⟩
      cases hget : bytes[skipBlanks bytes stop]? with
      | none =>
          rw [hget] at hany
          cases hany
      | some b => exact (List.getElem?_eq_some_iff.1 hget).1
    next =>
      split at hcomma <;> cases hcomma
  have hle := hskip stop
  omega

/-- Extraction is safe whatever the body and the path are. Done octet by octet it gives the same
value or error of the path, so none of the ways in which a scan of octets can fail is ever taken:
every look-up hands on a part of its text, and no bracket is closed while none is open, even in
octets that are no text. The walk over an array gets ahead from item to item, and what is extracted
is a part of the body. -/
theorem extract_safe (body path : String) :
    extract body path = (JsonPath.extract body path).mapError Failure.error ∧
    (∀ result, JsonPath.extract body path = .ok result →
      ∃ front back : String, body = front ++ result ++ back) ∧
    (∀ text name, HandsOn text (field text name)) ∧
    (∀ text name index, HandsOn text (element text name index)) ∧
    (∀ bytes i, ∃ range?, value? bytes i = .ok range?) ∧
    (∀ name shown bytes i start stop j, itemAt name shown bytes i = .ok (start, stop) →
      behindComma name shown bytes stop = .ok j →
      i ≤ start ∧ start < stop ∧ stop < j ∧ j ≤ bytes.length) := by
  refine ⟨extract_eq body path, ?_, ?_, ?_, ?_, ?_⟩
  · intro result hresult
    exact isInfix_of_extract hresult
  · intro text name
    exact (field_agrees text name).handsOn
  · intro text name index
    exact (element_agrees text name index).handsOn
  · intro bytes i
    obtain ⟨range?, hvalue, -⟩ := exists_value? bytes i
    exact ⟨range?, hvalue⟩
  · intro name shown bytes i start stop j hitem hcomma
    exact lt_of_behindComma hitem hcomma

/-- An escaped character of two octets, and a bracket that closes nothing. -/
theorem extract_safe_escapes :
    let body := "]\x7b\"\\é\": [ \"\\é]\" , 7]\x7d"
    let bytes := octets " \"\\é]\" , 7]"
    JsonPath.extract body "$.\\é[1]" = .ok "7" ∧
    (∃ front back : String, body = front ++ "7" ++ back) ∧
    itemAt "\\é" 1 bytes 0 = .ok (1, 7) ∧ behindComma "\\é" 1 bytes 7 = .ok 9 ∧
    (0 ≤ 1 ∧ 1 < 7 ∧ 7 < 9 ∧ 9 ≤ bytes.length) := by
  intro body bytes
  have hextract : JsonPath.extract body "$.\\é[1]" = .ok "7" := by cbv
  have hitem : itemAt "\\é" 1 bytes 0 = .ok (1, 7) := by cbv
  have hcomma : behindComma "\\é" 1 bytes 7 = .ok 9 := rfl
  obtain ⟨-, hpart, -, -, -, hwalk⟩ := extract_safe body "$.\\é[1]"
  exact ⟨hextract, hpart "7" hextract, hitem, hcomma, hwalk _ _ _ _ _ _ _ hitem hcomma⟩

end Stencil.JsonPath.Octets
