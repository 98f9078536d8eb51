import Stencil.JsonPath.Octets
import Stencil.Proofs.JsonPath.Search
import Stencil.Proofs.Text.Utf8

/-!
# Scanning octets and scanning characters

On the octets of a text the scans of octets take what the scans of characters take
(`stringEnd?_utf8`, `containerEnd?_utf8`, `value?_utf8`), although they do not know where
characters begin: an octet that looks like a quote, a backslash, a bracket or a blank is one, and
behind a backslash only high octets can be left of the character that is escaped. On octets that
are no text a scan need not mean anything, but it does not fail, and it takes no empty value
(`exists_value?`).
-/

namespace Stencil.JsonPath.Octets

open Text

/-! ## Octets of characters -/

theorem octets_ofList (cs : List Char) : octets (String.ofList cs) = utf8 cs := by
  rw [octets, toUTF8_ofList, List.toList_data_toByteArray]

theorem is_toUInt8 (m : Char) : is m m.toUInt8 = true := beq_self_eq_true _

/-- A high octet looks like no ASCII character. -/
theorem is_of_isHigh {m : Char} (hm : m.toNat < 128) {b : UInt8} (h : IsHigh b) :
    is m b = false := by
  rw [is, beq_eq_false_iff_ne]
  rintro rfl
  have hlow : m.toUInt8.toNat = m.toNat % 256 := rfl
  have hhigh : 128 ≤ m.toUInt8.toNat := h
  omega

/-- The first octet of a character looks like the character, and the others like none. -/
theorem exists_octets (c : Char) : ∃ b rest, String.utf8EncodeChar c = b :: rest ∧
    (∀ x ∈ rest, IsHigh x) ∧ (c.toNat < 128 → rest = []) ∧
    ∀ m : Char, m.toNat < 128 → is m b = (c == m) := by
  rcases utf8EncodeChar_cases c with ⟨hlow, heq⟩ | ⟨hhigh, hall⟩
  · refine ⟨c.toUInt8, [], heq, List.forall_mem_nil _, fun _ => rfl, ?_⟩
    intro m hm
    rw [is, Bool.eq_iff_iff, beq_iff_eq, beq_iff_eq]
    constructor
    · intro h
      have hnat : c.toNat % 256 = m.toNat % 256 := congrArg UInt8.toNat h
      rw [Nat.mod_eq_of_lt (by omega), Nat.mod_eq_of_lt (by omega)] at hnat
      exact Char.toNat_inj.1 hnat
    · rintro rfl
      rfl
  · obtain ⟨b, rest, heq⟩ := List.exists_cons_of_ne_nil (String.utf8EncodeChar_ne_nil (c := c))
    rw [heq, List.forall_mem_cons] at hall
    refine ⟨b, rest, heq, hall.2, fun hlow => absurd hlow (by omega), ?_⟩
    intro m hm
    rw [is_of_isHigh hm hall.1, eq_comm, beq_eq_false_iff_ne]
    rintro rfl
    omega

/-- No octet of a character looks like another character. -/
theorem is_of_ne {c m : Char} (hm : m.toNat < 128) (hne : c ≠ m) {b : UInt8}
    (hb : b ∈ String.utf8EncodeChar c) : is m b = false := by
  obtain ⟨first, high, heq, hhigh, -, his⟩ := exists_octets c
  rw [heq] at hb
  rcases List.mem_cons.1 hb with rfl | hb
  · rw [his m hm, beq_eq_false_iff_ne]
    exact hne
  · exact is_of_isHigh hm (hhigh b hb)

/-- The last octet of a character looks like the character or like none. -/
theorem exists_last_octet (c : Char) : ∃ front b, String.utf8EncodeChar c = front ++ [b] ∧
    ∀ m : Char, m.toNat < 128 → is m b = (c == m) := by
  obtain ⟨b, high, heq, hhigh, hlow, his⟩ := exists_octets c
  rcases List.eq_nil_or_concat high with rfl | ⟨front, last, rfl⟩
  · exact ⟨[], b, heq, his⟩
  · rw [List.concat_eq_append] at heq hhigh hlow
    refine ⟨b :: front, last, heq, ?_⟩
    intro m hm
    have hlast : IsHigh last := hhigh last List.mem_concat_self
    rw [is_of_isHigh hm hlast, eq_comm, beq_eq_false_iff_ne]
    rintro rfl
    exact List.concat_ne_nil last front (hlow hm)

/-- The first octet of a text looks like its first character. -/
theorem head?_looks {m : Char} (hm : m.toNat < 128) (cs : List Char) :
    (utf8 cs).head?.any (is m) = cs.head?.any (· == m) ∧
      (utf8 cs).head?.all (is m) = cs.head?.all (· == m) := by
  cases cs with
  | nil => exact ⟨rfl, rfl⟩
  | cons c r =>
      obtain ⟨b, high, heq, -, -, his⟩ := exists_octets c
      rw [utf8_cons, heq]
      exact ⟨his m hm, his m hm⟩

/-- The last octet of a text looks like its last character. -/
theorem getLast?_looks {m : Char} (hm : m.toNat < 128) (cs : List Char) :
    (utf8 cs).getLast?.any (is m) = cs.getLast?.any (· == m) := by
  rcases List.eq_nil_or_concat cs with rfl | ⟨front, c, rfl⟩
  · rfl
  · obtain ⟨before, b, heq, his⟩ := exists_last_octet c
    rw [List.concat_eq_append, utf8_append, utf8_cons, utf8_nil, List.append_nil, heq,
      ← List.append_assoc, List.getLast?_concat, List.getLast?_concat]
    exact his m hm

/-! ## Offsets -/

variable {bytes : List UInt8} {i : Nat}

theorem getElem?_eq_head? (bytes : List UInt8) (i : Nat) : bytes[i]? = (bytes.drop i).head? :=
  List.head?_drop.symm

theorem drop_add {front r : List UInt8} (h : bytes.drop i = front ++ r) :
    bytes.drop (i + front.length) = r := by
  rw [← List.drop_drop, h, List.drop_left]

theorem drop_succ {b : UInt8} {r : List UInt8} (h : bytes.drop i = b :: r) :
    bytes.drop (i + 1) = r := by
  rw [← List.drop_drop, h, List.drop_one, List.tail_cons]

theorem exists_getElem {b : UInt8} {r : List UInt8} (h : bytes.drop i = b :: r) :
    ∃ hi : i < bytes.length, bytes[i] = b := by
  have hget : bytes[i]? = some b := by rw [getElem?_eq_head?, h, List.head?_cons]
  exact List.getElem?_eq_some_iff.1 hget

theorem not_lt_of_drop (h : bytes.drop i = []) : ¬ i < bytes.length :=
  Nat.not_lt.2 (List.drop_eq_nil_iff.1 h)

/-- A scan that goes on behind each of some octets goes on behind all of them. -/
theorem pass_over {α : Type} {scan : Nat → α} {front r : List UInt8}
    (hstep : ∀ {i b r}, b ∈ front → bytes.drop i = b :: r → scan i = scan (i + 1))
    (h : bytes.drop i = front ++ r) : scan i = scan (i + front.length) := by
  induction front generalizing i with
  | nil => rfl
  | cons b front ih =>
      have hfirst := hstep List.mem_cons_self h
      have hrest := ih (fun hb => hstep (List.mem_cons_of_mem b hb)) (drop_succ h)
      rw [hfirst, hrest, List.length_cons, Nat.add_right_comm, Nat.add_assoc]

/-- The offset behind what is taken off the front of a text at an offset. -/
def stop (i : Nat) (parts : List Char × List Char) : Nat := i + (utf8 parts.1).length

theorem stop_comp_prepend (i : Nat) (front : List Char) :
    stop i ∘ prepend front = stop (i + (utf8 front).length) := by
  funext ⟨taken, rest⟩
  show i + (utf8 (front ++ taken)).length = i + (utf8 front).length + (utf8 taken).length
  rw [utf8_append, List.length_append, Nat.add_assoc]

theorem map_stop_prepend (i : Nat) (front : List Char)
    (parts? : Option (List Char × List Char)) :
    (parts?.map (prepend front)).map (stop i) =
      parts?.map (stop (i + (utf8 front).length)) := by
  rw [Option.map_map, stop_comp_prepend]

/-! ## Strings -/

theorem stringEnd?_nil (h : bytes.drop i = []) : stringEnd? bytes i = none := by
  rw [stringEnd?, dif_neg (not_lt_of_drop h)]

theorem stringEnd?_cons {b : UInt8} {r : List UInt8} (h : bytes.drop i = b :: r) :
    stringEnd? bytes i =
      if is '\\' b then stringEnd? bytes (i + 2)
      else if is '"' b then some (i + 1)
      else stringEnd? bytes (i + 1) := by
  obtain ⟨hi, rfl⟩ := exists_getElem h
  rw [stringEnd?, dif_pos hi]

theorem stringEnd?_backslash {r : List UInt8} (h : bytes.drop i = '\\'.toUInt8 :: r) :
    stringEnd? bytes i = stringEnd? bytes (i + 2) := by
  rw [stringEnd?_cons h, if_pos (is_toUInt8 _)]

theorem stringEnd?_skip {b : UInt8} {r : List UInt8} (hescape : is '\\' b = false)
    (hquote : is '"' b = false) (h : bytes.drop i = b :: r) :
    stringEnd? bytes i = stringEnd? bytes (i + 1) := by
  rw [stringEnd?_cons h, hescape, hquote, if_neg Bool.false_ne_true, if_neg Bool.false_ne_true]

/-- Any other character is passed over, with all its octets. -/
theorem stringEnd?_char {c : Char} (hquote : c ≠ '"') (hescape : c ≠ '\\') {r : List UInt8}
    (h : bytes.drop i = String.utf8EncodeChar c ++ r) :
    stringEnd? bytes i = stringEnd? bytes (i + (String.utf8EncodeChar c).length) := by
  refine pass_over ?_ h
  intro i b r hb hdrop
  exact stringEnd?_skip (is_of_ne (by decide) hescape hb) (is_of_ne (by decide) hquote hb) hdrop

/-- Of an escaped character the scan passes over the first octet and, as they are high, over the
others. -/
theorem stringEnd?_escape {c : Char} {r : List UInt8}
    (h : bytes.drop i = utf8 ['\\', c] ++ r) :
    stringEnd? bytes i = stringEnd? bytes (i + (utf8 ['\\', c]).length) := by
  obtain ⟨first, high, heq, hhigh, -, -⟩ := exists_octets c
  have hpair : utf8 ['\\', c] = '\\'.toUInt8 :: first :: high := by
    rw [utf8_cons, utf8_cons, utf8_nil, heq, List.append_nil]
    rfl
  rw [hpair] at h ⊢
  -- The scan goes on at the second octet of the character, or behind it if there is none.
  have hdrop : bytes.drop (i + 2) = high ++ r := drop_succ (drop_succ h)
  have hpass : stringEnd? bytes (i + 2) = stringEnd? bytes (i + 2 + high.length) := by
    refine pass_over ?_ hdrop
    intro i b r hb hdrop
    have hhigh := hhigh b hb
    exact stringEnd?_skip (is_of_isHigh (by decide) hhigh) (is_of_isHigh (by decide) hhigh) hdrop
  rw [stringEnd?_backslash h, hpass, List.length_cons, List.length_cons]
  congr 1
  omega

/-- The two scans of a string end at the same place. -/
theorem stringEnd?_utf8 {cs : List Char} (h : bytes.drop i = utf8 cs) :
    stringEnd? bytes i = (string? cs).map (stop i) := by
  fun_induction string? cs generalizing i with
  | case1 => exact stringEnd?_nil h
  | case2 => exact stringEnd?_cons h
  | case3 c hquote =>
      by_cases hescape : c = '\\'
      · subst hescape
        have hrest : bytes.drop (i + 1) = [] := drop_succ h
        rw [stringEnd?_backslash (r := []) h]
        refine stringEnd?_nil ?_
        show bytes.drop (i + 1 + 1) = []
        rw [← List.drop_drop, hrest, List.drop_nil]
      · rw [utf8_cons] at h
        rw [stringEnd?_char hquote hescape h]
        exact stringEnd?_nil (drop_add h)
  | case4 d r => exact stringEnd?_cons h
  | case5 d r hquote ih =>
      have hpair : bytes.drop i = utf8 ['\\', d] ++ utf8 r := by
        rw [h, ← utf8_append]
        rfl
      rw [stringEnd?_escape hpair, ih (drop_add hpair), onto_eq_prepend, onto_eq_prepend,
        prepend_comp_prepend, map_stop_prepend]
      rfl
  | case6 c d r hquote hescape ih =>
      rw [utf8_cons] at h
      rw [stringEnd?_char hquote hescape h, ih (drop_add h), onto_eq_prepend, map_stop_prepend,
        utf8_cons, utf8_nil, List.append_nil]

/-! ## Brackets -/

variable {opening closing : Char}

theorem containerEnd?_nil (h : bytes.drop i = []) (depth : Nat) :
    containerEnd? opening closing bytes depth i = .ok none := by
  rw [containerEnd?.eq_def, dif_neg (not_lt_of_drop h)]

theorem containerEnd?_cons {b : UInt8} {r : List UInt8} (h : bytes.drop i = b :: r)
    (depth : Nat) :
    containerEnd? opening closing bytes depth i =
      if is '"' b then
        match stringEnd? bytes (i + 1) with
        | none => .ok none
        | some j => containerEnd? opening closing bytes depth j
      else if is opening b then containerEnd? opening closing bytes (depth + 1) (i + 1)
      else if is closing b then
        match depth with
        | 0 => .error .depthBelowZero
        | 1 => .ok (some (i + 1))
        | depth + 2 => containerEnd? opening closing bytes (depth + 1) (i + 1)
      else containerEnd? opening closing bytes depth (i + 1) := by
  obtain ⟨hi, rfl⟩ := exists_getElem h
  rw [containerEnd?.eq_def, dif_pos hi]
  split
  · split
    next hj => rw [hj]
    next j hj =>
      show containerEnd? opening closing bytes depth j = _
      rw [hj]
  · rfl

theorem brackets_lt (h : Brackets opening closing) : opening.toNat < 128 ∧ closing.toNat < 128 := by
  cases h <;> decide

/-- A character that is no quote and none of the two brackets is passed over. -/
theorem containerEnd?_char (h : Brackets opening closing) {c : Char} (hquote : c ≠ '"')
    (hopening : c ≠ opening) (hclosing : c ≠ closing) {r : List UInt8}
    (hdrop : bytes.drop i = String.utf8EncodeChar c ++ r) (depth : Nat) :
    containerEnd? opening closing bytes depth i =
      containerEnd? opening closing bytes depth (i + (String.utf8EncodeChar c).length) := by
  refine pass_over ?_ hdrop
  intro i b r hb hdrop
  rw [containerEnd?_cons hdrop, is_of_ne (by decide) hquote hb,
    is_of_ne (brackets_lt h).1 hopening hb, is_of_ne (brackets_lt h).2 hclosing hb,
    if_neg Bool.false_ne_true, if_neg Bool.false_ne_true, if_neg Bool.false_ne_true]

theorem containerEnd?_quote {r : List UInt8} (h : bytes.drop i = '"'.toUInt8 :: r) (depth : Nat) :
    containerEnd? opening closing bytes depth i =
      match stringEnd? bytes (i + 1) with
      | none => .ok none
      | some j => containerEnd? opening closing bytes depth j := by
  rw [containerEnd?_cons h, if_pos (is_toUInt8 _)]

theorem containerEnd?_opening (h : Brackets opening closing) {r : List UInt8}
    (hdrop : bytes.drop i = opening.toUInt8 :: r) (depth : Nat) :
    containerEnd? opening closing bytes depth i =
      containerEnd? opening closing bytes (depth + 1) (i + 1) := by
  have hquote : is '"' opening.toUInt8 = false := by cases h <;> rfl
  rw [containerEnd?_cons hdrop, hquote, if_neg Bool.false_ne_true, if_pos (is_toUInt8 _)]

/-- Where brackets are open, closing one of them leaves the depth above zero or ends the scan. -/
theorem containerEnd?_closing (h : Brackets opening closing) {r : List UInt8}
    (hdrop : bytes.drop i = closing.toUInt8 :: r) (depth : Nat) :
    containerEnd? opening closing bytes (depth + 1) i =
      match depth with
      | 0 => .ok (some (i + 1))
      | depth + 1 => containerEnd? opening closing bytes (depth + 1) (i + 1) := by
  have hquote : is '"' closing.toUInt8 = false := by cases h <;> rfl
  have hopening : is opening closing.toUInt8 = false := by cases h <;> rfl
  rw [containerEnd?_cons hdrop, hquote, hopening, if_neg Bool.false_ne_true,
    if_neg Bool.false_ne_true, if_pos (is_toUInt8 _)]
  cases depth <;> rfl

/-- A string is passed over in one go. -/
theorem containerEnd?_string {r : List Char} (h : bytes.drop i = utf8 ('"' :: r)) (depth : Nat) :
    containerEnd? opening closing bytes depth i =
      match string? r with
      | none => .ok none
      | some (taken, _) =>
        containerEnd? opening closing bytes depth (i + 1 + (utf8 taken).length) := by
  rw [utf8_cons_of_lt (by decide)] at h
  rw [containerEnd?_quote h, stringEnd?_utf8 (drop_succ h)]
  cases string? r <;> rfl

/-- The two scans of brackets end at the same place. Strings are passed over in one go, so the
induction is on the length of what is left. -/
theorem containerEnd?_utf8 (h : Brackets opening closing) {cs : List Char} (depth : Nat)
    (hdrop : bytes.drop i = utf8 cs) :
    containerEnd? opening closing bytes (depth + 1) i =
      .ok ((container? opening closing .brackets depth cs).map (stop i)) := by
  induction hlength : cs.length using Nat.strongRecOn generalizing cs depth i with
  | ind n ih =>
    cases cs with
    | nil => exact containerEnd?_nil hdrop _
    | cons c r =>
      have hr : r.length < n := by
        rw [← hlength, List.length_cons]
        omega
      by_cases hquote : c = '"'
      · subst hquote
        rw [containerEnd?_string hdrop, container?_quote, container?_string, onto_eq_prepend]
        cases htake : string? r with
        | none => rfl
        | some parts =>
            obtain ⟨taken, rest⟩ := parts
            obtain ⟨rfl, -⟩ : r = taken ++ rest ∧ taken ≠ [] := splits_of_string? htake
            have hless : rest.length < n := by
              rw [List.length_append] at hr
              omega
            have hrest : bytes.drop (i + 1 + (utf8 taken).length) = utf8 rest := by
              rw [utf8_cons_of_lt (by decide), utf8_append] at hdrop
              exact drop_add (drop_succ hdrop)
            dsimp only
            rw [ih _ hless depth hrest rfl, Option.bind_some, map_stop_prepend, map_stop_prepend]
            rfl
      by_cases hopening : c = opening
      · subst hopening
        have hone : utf8 [c] = [c.toUInt8] := utf8_cons_of_lt (brackets_lt h).1 []
        rw [utf8_cons_of_lt (brackets_lt h).1] at hdrop
        rw [containerEnd?_opening h hdrop, ih _ hr _ (drop_succ hdrop) rfl,
          container?_opening hquote, onto_eq_prepend, map_stop_prepend, hone]
        rfl
      by_cases hclosing : c = closing
      · subst hclosing
        have hone : utf8 [c] = [c.toUInt8] := utf8_cons_of_lt (brackets_lt h).2 []
        rw [utf8_cons_of_lt (brackets_lt h).2] at hdrop
        rw [containerEnd?_closing h hdrop]
        cases depth with
        | zero =>
            rw [container?, if_neg hquote, if_neg hopening, if_pos rfl, Option.map_some, stop, hone]
            rfl
        | succ depth =>
            rw [container?, if_neg hquote, if_neg hopening, if_pos rfl, onto_eq_prepend,
              map_stop_prepend, hone]
            exact ih _ hr _ (drop_succ hdrop) rfl
      · have hpass := Passes.char hquote hopening hclosing depth r
        rw [List.singleton_append] at hpass
        rw [utf8_cons] at hdrop
        rw [containerEnd?_char h hquote hopening hclosing hdrop, ih _ hr _ (drop_add hdrop) rfl,
          hpass, map_stop_prepend, utf8_cons, utf8_nil, List.append_nil]

/-! ## Blanks and words -/

/-- A test of octets holds of all octets of a character or, if the test of characters fails, not of
the first. -/
structure Reads (onOctets : UInt8 → Bool) (onChars : Char → Bool) : Prop where
  all : ∀ c, onChars c = true → ∀ b ∈ String.utf8EncodeChar c, onOctets b = true
  first : ∀ c, onChars c = false → ∃ b rest, String.utf8EncodeChar c = b :: rest ∧
    onOctets b = false

theorem Reads.takeWhile {onOctets : UInt8 → Bool} {onChars : Char → Bool}
    (h : Reads onOctets onChars) (cs : List Char) :
    (utf8 cs).takeWhile onOctets = utf8 (cs.takeWhile onChars) := by
  induction cs with
  | nil => rfl
  | cons c cs ih =>
      rw [utf8_cons]
      cases hc : onChars c with
      | true =>
          rw [List.takeWhile_append_of_pos (h.all c hc), ih, List.takeWhile_cons_of_pos hc,
            utf8_cons]
      | false =>
          obtain ⟨b, rest, heq, hb⟩ := h.first c hc
          rw [heq, List.cons_append, List.takeWhile_cons_of_neg (by simp [hb]),
            List.takeWhile_cons_of_neg (by simp [hc]), utf8_nil]

theorem isBlank_of_isHigh {b : UInt8} (h : IsHigh b) : isBlank b = false := by
  simp only [isBlank, is_of_isHigh (m := ' ') (by decide) h,
    is_of_isHigh (m := '\t') (by decide) h, is_of_isHigh (m := '\n') (by decide) h,
    is_of_isHigh (m := '\x0c') (by decide) h, is_of_isHigh (m := '\r') (by decide) h,
    Bool.or_false]

theorem isBlank_eq {b : UInt8} {c : Char} (h : ∀ m : Char, m.toNat < 128 → is m b = (c == m)) :
    isBlank b = isAsciiBlank c := by
  simp only [isBlank, isAsciiBlank, h ' ' (by decide), h '\t' (by decide), h '\n' (by decide),
    h '\x0c' (by decide), h '\r' (by decide)]

theorem endsWord_of_isHigh {b : UInt8} (h : IsHigh b) : endsWord b = false := by
  simp only [endsWord, is_of_isHigh (m := ',') (by decide) h,
    is_of_isHigh (m := '}') (by decide) h, is_of_isHigh (m := ']') (by decide) h,
    isBlank_of_isHigh h, Bool.or_false]

theorem endsWord_eq {b : UInt8} {c : Char} (h : ∀ m : Char, m.toNat < 128 → is m b = (c == m)) :
    endsWord b = JsonPath.endsWord c := by
  simp only [endsWord, JsonPath.endsWord, isBlank_eq h, h ',' (by decide),
    h '}' (by decide), h ']' (by decide)]

theorem reads_isBlank : Reads isBlank isAsciiBlank where
  all c hc x hx := by
    obtain ⟨b, high, heq, hhigh, hlow, his⟩ := exists_octets c
    have hascii : c.toNat < 128 := by
      simp only [isAsciiBlank, Bool.or_eq_true, beq_iff_eq] at hc
      rcases hc with (((rfl | rfl) | rfl) | rfl) | rfl <;> decide
    rw [heq, hlow hascii, List.mem_singleton] at hx
    rw [hx, isBlank_eq his, hc]
  first c hc := by
    obtain ⟨b, high, heq, -, -, his⟩ := exists_octets c
    exact ⟨b, high, heq, by rw [isBlank_eq his, hc]⟩

theorem reads_word : Reads (fun b => !endsWord b) (fun c => !JsonPath.endsWord c) where
  all c hc x hx := by
    obtain ⟨b, high, heq, hhigh, -, his⟩ := exists_octets c
    rw [heq] at hx
    rcases List.mem_cons.1 hx with rfl | hx
    · rw [endsWord_eq his, hc]
    · rw [endsWord_of_isHigh (hhigh x hx)]
      rfl
  first c hc := by
    obtain ⟨b, high, heq, -, -, his⟩ := exists_octets c
    exact ⟨b, high, heq, by rw [endsWord_eq his, hc]⟩

/-- Both scans pass over the same blanks. -/
theorem skipBlanks_utf8 {cs : List Char} (h : bytes.drop i = utf8 cs) :
    skipBlanks bytes i = i + (utf8 (cs.takeWhile isAsciiBlank)).length := by
  rw [skipBlanks, h, reads_isBlank.takeWhile]

theorem drop_skipBlanks {cs : List Char} (h : bytes.drop i = utf8 cs) :
    bytes.drop (skipBlanks bytes i) = utf8 (JsonPath.skipBlanks cs) := by
  rw [skipBlanks_utf8 h]
  refine drop_add ?_
  rw [h, ← utf8_append]
  exact congrArg utf8 List.takeWhile_append_dropWhile.symm

/-! ## Values -/

/-- The range that a scan from an offset has gone through. -/
def range (start : Nat) (parts : List Char × List Char) : Nat × Nat := (start, stop start parts)

theorem map_pair_stop {c : Char} (h : c.toNat < 128) (start : Nat)
    (parts? : Option (List Char × List Char)) :
    (parts?.map (stop (start + 1))).map (fun j => (start, j)) =
      (parts?.map (onto c)).map (range start) := by
  have hone : utf8 [c] = [c.toUInt8] := utf8_cons_of_lt h []
  have hstop : stop (start + 1) = stop start ∘ prepend [c] := by
    rw [stop_comp_prepend, hone]
    rfl
  rw [hstop, onto_eq_prepend, Option.map_map, Option.map_map]
  rfl

theorem containerEnd?_value (h : Brackets opening closing) {start : Nat} {r : List Char}
    (hdrop : bytes.drop start = utf8 (opening :: r)) :
    (containerEnd? opening closing bytes 0 start).map (Option.map fun j => (start, j)) =
      .ok (((container? opening closing .brackets 0 r).map (onto opening)).map (range start)) := by
  rw [utf8_cons_of_lt (brackets_lt h).1] at hdrop
  rw [containerEnd?_opening h hdrop, containerEnd?_utf8 h 0 (drop_succ hdrop)]
  exact congrArg Except.ok (map_pair_stop (brackets_lt h).1 start _)

/-- A value without brackets and quotes: it is empty where its first character ends one. -/
theorem word_utf8 {start : Nat} {c : Char} {r : List Char}
    (hdrop : bytes.drop start = utf8 (c :: r)) :
    (let stop := start + ((bytes.drop start).takeWhile fun b => !endsWord b).length
      if start < stop then some (start, stop) else none) =
      (if JsonPath.endsWord c then none
        else some ((c :: r).takeWhile (fun d => !JsonPath.endsWord d),
          (c :: r).dropWhile (fun d => !JsonPath.endsWord d))).map (range start) := by
  rw [hdrop, reads_word.takeWhile]
  cases hc : JsonPath.endsWord c with
  | true =>
      rw [List.takeWhile_cons_of_neg (by simp [hc])]
      simp
  | false =>
      obtain ⟨b, high, heq, -⟩ := exists_octets c
      have hlt : start <
          start + (utf8 ((c :: r).takeWhile fun d => !JsonPath.endsWord d)).length := by
        rw [List.takeWhile_cons_of_pos (by simp [hc]), utf8_cons, heq, List.length_append,
          List.length_cons]
        omega
      dsimp only
      rw [if_pos hlt, if_neg Bool.false_ne_true]
      rfl

/-- The two scans take the same value. -/
theorem value?_utf8 {cs : List Char} (h : bytes.drop i = utf8 cs) :
    value? bytes i = .ok ((JsonPath.value? cs).map (range (skipBlanks bytes i))) := by
  have hdrop := drop_skipBlanks h
  rw [value?, JsonPath.value?, getElem?_eq_head?, hdrop]
  cases hskip : JsonPath.skipBlanks cs with
  | nil => rfl
  | cons c r =>
      rw [hskip] at hdrop
      obtain ⟨b, high, heq, -, -, his⟩ := exists_octets c
      have hhead : (utf8 (c :: r)).head? = some b := by
        rw [utf8_cons, heq]
        rfl
      rw [hhead, ← hdrop]
      simp only [his _ (show '"'.toNat < 128 by decide), his _ (show '{'.toNat < 128 by decide),
        his _ (show '['.toNat < 128 by decide), beq_iff_eq]
      split
      next hquote =>
        subst hquote
        rw [utf8_cons_of_lt (by decide)] at hdrop
        rw [stringEnd?_utf8 (drop_succ hdrop)]
        exact congrArg Except.ok (map_pair_stop (by decide) _ _)
      split
      next hcurly =>
        subst hcurly
        exact containerEnd?_value .curly hdrop
      split
      next hsquare =>
        subst hsquare
        exact containerEnd?_value .square hdrop
      next => exact congrArg Except.ok (word_utf8 hdrop)

/-! ## Arbitrary octets -/

/-- A scan does not fail, and where it ends is behind the offset where it began. -/
def EndsBehind (bytes : List UInt8) (i : Nat) (scanned : Except Failure (Option Nat)) : Prop :=
  ∃ j?, scanned = .ok j? ∧ ∀ j ∈ j?, i < j ∧ j ≤ bytes.length

theorem EndsBehind.nowhere (bytes : List UInt8) (i : Nat) : EndsBehind bytes i (.ok none) := by
  refine ⟨none, rfl, ?_⟩
  rintro j ⟨⟩

theorem EndsBehind.of_le {scanned : Except Failure (Option Nat)} {k : Nat}
    (h : EndsBehind bytes k scanned) (hle : i ≤ k) : EndsBehind bytes i scanned := by
  obtain ⟨j?, heq, hbounds⟩ := h
  refine ⟨j?, heq, ?_⟩
  intro j hj
  have := hbounds j hj
  omega

/-- Where brackets are open, the depth does not get below zero. -/
theorem endsBehind_containerEnd? (bytes : List UInt8) {depth : Nat} (i : Nat) (h : 0 < depth) :
    EndsBehind bytes i (containerEnd? opening closing bytes depth i) := by
  fun_induction containerEnd? opening closing bytes depth i with
  | case1 depth i => exact .nowhere bytes i
  | case2 depth i hi hquote j hj hlt ih => exact (ih h).of_le (by omega)
  | case3 depth i hi hquote hopening ih => exact (ih (Nat.succ_pos depth)).of_le (by omega)
  | case4 => omega
  | case5 i hi =>
      refine ⟨some (i + 1), rfl, ?_⟩
      rintro j ⟨⟩
      omega
  | case6 i hi hquote hopening hclosing depth ih =>
      exact (ih (Nat.succ_pos depth)).of_le (by omega)
  | case7 depth i hi hquote hopening hclosing ih => exact (ih h).of_le (by omega)
  | case8 depth i => exact .nowhere bytes i

theorem EndsBehind.range {scanned : Except Failure (Option Nat)} (h : EndsBehind bytes i scanned) :
    ∃ range?, scanned.map (Option.map fun j => (i, j)) = .ok range? ∧
      ∀ range ∈ range?, i = range.1 ∧ range.1 < range.2 ∧ range.2 ≤ bytes.length := by
  obtain ⟨j?, rfl, hbounds⟩ := h
  refine ⟨j?.map fun j => (i, j), rfl, ?_⟩
  intro range hrange
  obtain ⟨j, hj, rfl⟩ := Option.map_eq_some_iff.1 hrange
  exact ⟨rfl, hbounds j hj⟩

theorem exists_drop_of_getElem? {b : UInt8} (h : bytes[i]? = some b) :
    ∃ r, bytes.drop i = b :: r := by
  rw [getElem?_eq_head?] at h
  exact ⟨_, (List.head?_eq_some_iff.1 h).choose_spec⟩

theorem endsBehind_stringEnd? (bytes : List UInt8) (i : Nat) :
    EndsBehind bytes i (.ok (stringEnd? bytes (i + 1))) := by
  refine ⟨_, rfl, ?_⟩
  intro j hj
  have := lt_of_stringEnd? hj
  omega

/-- At a bracket that opens a container, one bracket is open behind it. -/
theorem endsBehind_of_opening (h : Brackets opening closing) {b : UInt8} {r : List UInt8}
    (hdrop : bytes.drop i = b :: r) (hb : is opening b = true) :
    EndsBehind bytes i (containerEnd? opening closing bytes 0 i) := by
  obtain rfl : b = opening.toUInt8 := beq_iff_eq.1 hb
  rw [containerEnd?_opening h hdrop]
  exact (endsBehind_containerEnd? bytes (i + 1) Nat.one_pos).of_le (Nat.le_succ i)

/-- The scan of a value does not fail, and what it takes is not empty. -/
theorem exists_value? (bytes : List UInt8) (i : Nat) :
    ∃ range?, value? bytes i = .ok range? ∧ ∀ range ∈ range?, skipBlanks bytes i = range.1 ∧
      range.1 < range.2 ∧ range.2 ≤ bytes.length := by
  rw [value?]
  cases hget : bytes[skipBlanks bytes i]? with
  | none =>
      refine ⟨none, rfl, ?_⟩
      rintro range ⟨⟩
  | some b =>
      obtain ⟨r, hdrop⟩ := exists_drop_of_getElem? hget
      dsimp only
      split
      · exact (endsBehind_stringEnd? bytes _).range
      split
      next hcurly => exact (endsBehind_of_opening .curly hdrop hcurly).range
      split
      next hsquare => exact (endsBehind_of_opening .square hdrop hsquare).range
      next =>
        refine ⟨_, rfl, ?_⟩
        intro range hrange
        have hword : ((bytes.drop (skipBlanks bytes i)).takeWhile fun b => !endsWord b).length ≤
            (bytes.drop (skipBlanks bytes i)).length := (List.takeWhile_prefix _).length_le
        rw [List.length_drop] at hword
        obtain ⟨hi, -⟩ := exists_getElem hdrop
        split at hrange
        next hlt =>
          cases hrange
          exact ⟨rfl, hlt, by omega⟩
        next => cases hrange

end Stencil.JsonPath.Octets
