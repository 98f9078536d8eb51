import Stencil.Proofs.Text.Utf8
import Stencil.Text.Percent

/-!
# Both encodings

`encode` and `encodePath` keep different characters and are otherwise one function. What they write
consists of kept characters and of bytes behind percent signs (`Written`), and as a percent sign is
never kept, one decoder reads the bytes of the text back from either (`decode_encodeKeeping`). A
text that is encoded for paths and in which the path marks are then written as bytes is the text
that keeps unreserved characters only (`flatMap_writeMark_encodePath`). The main statement is
`encodings_invertible`.
-/

namespace Stencil.Percent

open Text

/-- The characters that both encodings keep. -/
def unreserved : List Char :=
  "ABCDEFGHIJKLMNOPQRSTUVWXYZabcdefghijklmnopqrstuvwxyz0123456789-._~".toList

/-- The characters that the encoding for paths keeps besides. -/
def pathMarks : List Char := "!$&'()*+,;=:@/".toList

/-- The digits in which bytes are written. -/
def hexDigits : List Char := "0123456789ABCDEF".toList

/-- The texts of characters that may stand for themselves and of bytes behind percent signs. -/
inductive Written (kept : List Char) : List Char → Prop
  | nil : Written kept []
  | char {c : Char} {rest : List Char} : c ∈ kept → Written kept rest → Written kept (c :: rest)
  | byte {high low : Char} {rest : List Char} : high ∈ hexDigits → low ∈ hexDigits →
      Written kept rest → Written kept ('%' :: high :: low :: rest)

/-- The text whose bytes an encoded text stands for, if they are UTF-8. -/
def decodeText? (cs : List Char) : Option String := String.fromUTF8? (decode cs).toByteArray

/-- A path mark as a byte behind a percent sign; other characters stay. -/
def writeMark (c : Char) : List Char := if c ∈ pathMarks then escapeByte c.toUInt8 else [c]

variable {keep : Char → Bool} {kept cs ds : List Char} {c : Char}

/-! ## Classes of characters -/

theorem toNat_lt_of_isUnreserved (h : isUnreserved c = true) : c.toNat < 128 := by
  simp only [isUnreserved, Bool.or_eq_true, beq_iff_eq] at h
  rcases h with (((h | rfl) | rfl) | rfl) | rfl
  · rcases Bool.or_eq_true_iff.1 h with h | h
    · rcases Bool.or_eq_true_iff.1 h with h | h
      · exact Nat.lt_of_le_of_lt (of_decide_eq_true h).2 (by decide)
      · exact Nat.lt_of_le_of_lt (of_decide_eq_true (Bool.and_eq_true_iff.1 h).2) (by decide)
    · exact Nat.lt_of_le_of_lt (of_decide_eq_true (Bool.and_eq_true_iff.1 h).2) (by decide)
  all_goals decide

theorem isUnreserved_iff : isUnreserved c = true ↔ c ∈ unreserved := by
  constructor
  · intro h
    have hall : ∀ n < 128, isUnreserved (Char.ofNat n) = true → Char.ofNat n ∈ unreserved := by
      decide +kernel
    have hc := hall c.toNat (toNat_lt_of_isUnreserved h)
    rw [Char.ofNat_toNat] at hc
    exact hc h
  · have hall : unreserved.all isUnreserved = true := by decide +kernel
    exact List.all_eq_true.1 hall c

theorem isPathMark_iff : isPathMark c = true ↔ c ∈ pathMarks := decide_eq_true_iff

/-- The characters that the encoding for paths keeps. -/
theorem isKept_iff :
    (isUnreserved c || isPathMark c) = true ↔ c ∈ unreserved ++ pathMarks := by
  rw [Bool.or_eq_true, List.mem_append, isUnreserved_iff, isPathMark_iff]

theorem hexDigit_mem : ∀ n < 16, hexDigit n ∈ hexDigits := by decide

/-! ## Written texts -/

theorem Written.append (h : Written kept cs) (h' : Written kept ds) : Written kept (cs ++ ds) := by
  induction h with
  | nil => exact h'
  | char hc _ ih => exact .char hc ih
  | byte hhigh hlow _ ih => exact .byte hhigh hlow ih

theorem written_escapeByte (b : UInt8) : Written kept (escapeByte b) := by
  have hb := b.toNat_lt
  exact .byte (hexDigit_mem _ (by omega)) (hexDigit_mem _ (by omega)) .nil

theorem written_flatMap {α : Type} {f : α → List Char} {xs : List α}
    (h : ∀ x ∈ xs, Written kept (f x)) : Written kept (xs.flatMap f) := by
  induction xs with
  | nil => exact .nil
  | cons x xs ih =>
      obtain ⟨hx, hxs⟩ := List.forall_mem_cons.1 h
      rw [List.flatMap_cons]
      exact hx.append (ih hxs)

theorem written_encodeKeeping (hkeep : ∀ c, keep c = true → c ∈ kept) (cs : List Char) :
    Written kept (encodeKeeping keep cs) := by
  refine written_flatMap fun c _ => ?_
  split
  next hc => exact .char (hkeep c hc) .nil
  next => exact written_flatMap fun b _ => written_escapeByte b

/-- What a written text is made of. -/
theorem Written.mem (h : Written kept cs) : ∀ c ∈ cs, c ∈ '%' :: hexDigits ++ kept := by
  induction h with
  | nil => exact List.forall_mem_nil _
  | char hc _ ih =>
      exact List.forall_mem_cons.2 ⟨List.mem_append_right _ hc, ih⟩
  | byte hhigh hlow _ ih =>
      have hdigit : ∀ d ∈ hexDigits, d ∈ '%' :: hexDigits ++ kept := fun d hd =>
        List.mem_append_left _ (List.mem_cons_of_mem _ hd)
      exact List.forall_mem_cons.2 ⟨List.mem_cons_self, List.forall_mem_cons.2
        ⟨hdigit _ hhigh, List.forall_mem_cons.2 ⟨hdigit _ hlow, ih⟩⟩⟩

/-! ## Reading back -/

theorem encodeKeeping_cons (c : Char) (cs : List Char) :
    encodeKeeping keep (c :: cs) =
      (if keep c then [c] else escapeChar c) ++ encodeKeeping keep cs := List.flatMap_cons

theorem decode_cons_of_ne (hc : c ≠ '%') (rest : List Char) :
    decode (c :: rest) = String.utf8EncodeChar c ++ decode rest := by
  match rest with
  | [] | [_] => rfl
  | _ :: _ :: _ => rw [decode, if_neg hc]

/-- The bytes of a text are read back from its encoding, as a percent sign that stands in it
begins a byte. -/
theorem decode_encodeKeeping (hpercent : keep '%' = false) (cs : List Char) :
    decode (encodeKeeping keep cs) = utf8 cs := by
  induction cs with
  | nil => rfl
  | cons c cs ih =>
      rw [encodeKeeping_cons, utf8_cons]
      split
      next hc =>
        have hne : c ≠ '%' := by
          rintro rfl
          rw [hpercent] at hc
          cases hc
        rw [List.singleton_append, decode_cons_of_ne hne, ih]
      next => rw [escapeChar, decode_flatMap_escapeByte, ih]

theorem decodeText?_encodeKeeping (hpercent : keep '%' = false) (s : String) :
    decodeText? (encodeKeeping keep s.toList) = some s := by
  have hbytes : (utf8 s.toList).toByteArray = s.toUTF8 := by
    rw [← toUTF8_ofList, String.ofList_toList]
  rw [decodeText?, decode_encodeKeeping hpercent, hbytes, String.fromUTF8?,
    String.toUTF8_eq_toByteArray, dif_pos s.isValidUTF8]
  rfl

/-! ## Texts that are left alone -/

theorem length_escapeChar (c : Char) : 3 ≤ (escapeChar c).length := by
  obtain ⟨b, bs, heq⟩ := List.exists_cons_of_ne_nil (String.utf8EncodeChar_ne_nil (c := c))
  rw [escapeChar, heq, List.flatMap_cons, List.length_append]
  exact Nat.le_add_right 3 _

theorem length_le_encodeKeeping (cs : List Char) : cs.length ≤ (encodeKeeping keep cs).length := by
  induction cs with
  | nil => exact Nat.le_refl 0
  | cons c cs ih =>
      rw [encodeKeeping_cons, List.length_append, List.length_cons]
      have hone : 1 ≤ (if keep c then [c] else escapeChar c).length := by
        split
        next => exact Nat.le_refl 1
        next =>
          have hlong := length_escapeChar c
          omega
      omega

/-- Encoding changes a text unless all its characters are kept: a byte is longer than a
character. -/
theorem encodeKeeping_eq_self_iff :
    encodeKeeping keep cs = cs ↔ ∀ c ∈ cs, keep c = true := by
  induction cs with
  | nil => simp [encodeKeeping]
  | cons c cs ih =>
      rw [encodeKeeping_cons, List.forall_mem_cons]
      split
      next hc =>
        rw [List.singleton_append, List.cons.injEq, ih]
        exact ⟨fun h => ⟨hc, h.2⟩, fun h => ⟨rfl, h.2⟩⟩
      next hc =>
        refine ⟨fun h => ?_, fun h => absurd h.1 hc⟩
        have hlength := congrArg List.length h
        rw [List.length_append, List.length_cons] at hlength
        have hlong := length_escapeChar c
        have hrest : cs.length ≤ (encodeKeeping keep cs).length := length_le_encodeKeeping cs
        omega

/-! ## The path marks -/

theorem flatMap_writeMark_of_not_mem (h : ∀ c ∈ cs, c ∉ pathMarks) : cs.flatMap writeMark = cs := by
  induction cs with
  | nil => rfl
  | cons c cs ih =>
      obtain ⟨hc, hcs⟩ := List.forall_mem_cons.1 h
      rw [List.flatMap_cons, ih hcs, writeMark, if_neg hc, List.singleton_append]

/-- A path mark is one byte. -/
theorem escapeChar_of_mem (h : c ∈ pathMarks) : escapeChar c = escapeByte c.toUInt8 := by
  have hascii : pathMarks.all (fun d => d.toNat < 128) = true := by decide
  rcases utf8EncodeChar_cases c with ⟨-, heq⟩ | ⟨hhigh, -⟩
  · rw [escapeChar, heq, List.flatMap_cons, List.flatMap_nil, List.append_nil]
  · have hc := of_decide_eq_true (List.all_eq_true.1 hascii c h)
    omega

/-- No byte is written with a path mark. -/
theorem not_mem_pathMarks_of_mem_escapeChar : ∀ d ∈ escapeChar c, d ∉ pathMarks := by
  have hnone : ('%' :: hexDigits ++ []).all (fun d => d ∉ pathMarks) = true := by decide
  have hwritten : Written [] (escapeChar c) := written_flatMap fun b _ => written_escapeByte b
  intro d hd
  exact of_decide_eq_true (List.all_eq_true.1 hnone d (hwritten.mem d hd))

/-- The encoding for paths with the path marks written as bytes is the other encoding. -/
theorem flatMap_writeMark_encodePath (cs : List Char) :
    (encodePath cs).flatMap writeMark = encode cs := by
  unfold encodePath encode
  induction cs with
  | nil => rfl
  | cons c cs ih =>
      rw [encodeKeeping_cons, encodeKeeping_cons, List.flatMap_append, ih]
      congr 1
      cases hunreserved : isUnreserved c with
      | true =>
          have hnot : c ∉ pathMarks := by
            have hdisjoint : unreserved.all (fun d => d ∉ pathMarks) = true := by decide +kernel
            have hmem := isUnreserved_iff.1 hunreserved
            exact of_decide_eq_true (List.all_eq_true.1 hdisjoint c hmem)
          exact flatMap_writeMark_of_not_mem (by simpa using hnot)
      | false =>
          cases hmark : isPathMark c with
          | true =>
              have hmem := isPathMark_iff.1 hmark
              simp [writeMark, hmem, escapeChar_of_mem hmem]
          | false => exact flatMap_writeMark_of_not_mem not_mem_pathMarks_of_mem_escapeChar

/-! ## Both encodings -/

/-- Either encoding is read back by percent-decoding. One writes unreserved characters and bytes
only, the other also path marks; each leaves a text alone exactly if that is what the text is made
of. Both go text by text, and writing the path marks of the one as bytes gives the other. So
neither writes a brace, a space, a number sign, a question mark or a character that is not ASCII. -/
theorem encodings_invertible (s : String) :
    (decodeText? (encode s.toList) = some s ∧ decodeText? (encodePath s.toList) = some s) ∧
    (Written unreserved (encode s.toList) ∧
      Written (unreserved ++ pathMarks) (encodePath s.toList)) ∧
    ((encode s.toList = s.toList ↔ ∀ c ∈ s.toList, c ∈ unreserved) ∧
      (encodePath s.toList = s.toList ↔ ∀ c ∈ s.toList, c ∈ unreserved ++ pathMarks)) ∧
    (∀ t : String, encode (s ++ t).toList = encode s.toList ++ encode t.toList ∧
      encodePath (s ++ t).toList = encodePath s.toList ++ encodePath t.toList) ∧
    (encodePath s.toList).flatMap writeMark = encode s.toList ∧
    ∀ c, c ∈ encode s.toList ∨ c ∈ encodePath s.toList →
      c.toNat < 128 ∧ c ∉ ['{', '}', ' ', '#', '?'] := by
  have hwritten : Written unreserved (encode s.toList) :=
    written_encodeKeeping (fun _ => isUnreserved_iff.1) _
  have hwrittenPath : Written (unreserved ++ pathMarks) (encodePath s.toList) :=
    written_encodeKeeping (fun _ => isKept_iff.1) _
  refine ⟨⟨decodeText?_encodeKeeping rfl s, decodeText?_encodeKeeping rfl s⟩,
    ⟨hwritten, hwrittenPath⟩, ⟨?_, ?_⟩, ?_, flatMap_writeMark_encodePath _, ?_⟩
  · simp only [encode, encodeKeeping_eq_self_iff, isUnreserved_iff]
  · simp only [encodePath, encodeKeeping_eq_self_iff, isKept_iff]
  · intro t
    rw [String.toList_append]
    exact ⟨encodeKeeping_append _ _ _, encodeKeeping_append _ _ _⟩
  · have hall : ('%' :: hexDigits ++ (unreserved ++ pathMarks)).all (fun d =>
        d.toNat < 128 ∧ d ∉ ['{', '}', ' ', '#', '?']) = true := by decide +kernel
    have hclean : ∀ d ∈ '%' :: hexDigits ++ (unreserved ++ pathMarks),
        d.toNat < 128 ∧ d ∉ ['{', '}', ' ', '#', '?'] := fun d hd =>
      of_decide_eq_true (List.all_eq_true.1 hall d hd)
    rintro c (hc | hc)
    · refine hclean c ?_
      rcases List.mem_append.1 (hwritten.mem c hc) with hc | hc
      · exact List.mem_append_left _ hc
      · exact List.mem_append_right _ (List.mem_append_left _ hc)
    · exact hclean c (hwrittenPath.mem c hc)

/-- A percent sign, marks of both sorts, and characters of two and of four bytes. -/
theorem encodings_invertible_reserved :
    let s := "50%2F {é}a/b,c?#😀"
    encode s.toList = "50%252F%20%7B%C3%A9%7Da%2Fb%2Cc%3F%23%F0%9F%98%80".toList ∧
    encodePath s.toList = "50%252F%20%7B%C3%A9%7Da/b,c%3F%23%F0%9F%98%80".toList ∧
    decodeText? (encode s.toList) = some s ∧ decodeText? (encodePath s.toList) = some s ∧
    '/' ∈ encodePath s.toList ∧ '/'.toNat < 128 := by
  intro s
  obtain ⟨⟨hdecode, hdecodePath⟩, -, -, -, -, hclean⟩ := encodings_invertible s
  have hmem : '/' ∈ encodePath s.toList := by decide +kernel
  exact ⟨by decide +kernel, by decide +kernel, hdecode, hdecodePath, hmem,
    (hclean '/' (.inr hmem)).1⟩

end Stencil.Percent
