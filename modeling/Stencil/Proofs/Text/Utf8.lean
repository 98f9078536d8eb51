/-!
# UTF-8 octets of texts

What a scan of octets relies on. The octet of an ASCII character is its own number, and all other
characters have high octets only, so an octet that looks like an ASCII character is one
(`utf8EncodeChar_cases`). No octets of a character begin those of another one, so a text whose
octets stand at the front of those of another text stands at the front of it
(`utf8_prefix_utf8`).
-/

namespace Stencil.Text

/-- The UTF-8 octets of a text. -/
def utf8 (cs : List Char) : List UInt8 := cs.flatMap String.utf8EncodeChar

@[simp] theorem utf8_nil : utf8 [] = [] := rfl

@[simp] theorem utf8_cons (c : Char) (cs : List Char) :
    utf8 (c :: cs) = String.utf8EncodeChar c ++ utf8 cs := List.flatMap_cons

@[simp] theorem utf8_append (a b : List Char) : utf8 (a ++ b) = utf8 a ++ utf8 b :=
  List.flatMap_append

theorem toUTF8_ofList (cs : List Char) : (String.ofList cs).toUTF8 = (utf8 cs).toByteArray := by
  rw [String.toUTF8_eq_toByteArray, String.toByteArray_ofList]
  rfl

theorem utf8ByteSize_ofList (cs : List Char) :
    (String.ofList cs).utf8ByteSize = (utf8 cs).length := by
  show (String.ofList cs).toByteArray.size = _
  rw [← String.toUTF8_eq_toByteArray, toUTF8_ofList, List.size_toByteArray]

/-! ## Positions in texts -/

theorem rawEndPos_ofList (cs : List Char) :
    (String.ofList cs).rawEndPos = ⟨(utf8 cs).length⟩ := by
  rw [String.rawEndPos, utf8ByteSize_ofList]

/-- Behind the octets of some characters of a text is a position in it. -/
theorem isValid_ofList (front back : List Char) :
    String.Pos.Raw.IsValid (String.ofList (front ++ back)) ⟨(utf8 front).length⟩ := by
  rw [← rawEndPos_ofList]
  exact String.Pos.Raw.isValid_iff_exists_append.2
    ⟨String.ofList front, String.ofList back, String.ofList_append, rfl⟩

/-- What stands between two positions in a text. -/
theorem copy_slice_ofList (front value back : List Char)
    (hstart : String.Pos.Raw.IsValid (String.ofList (front ++ value ++ back))
      ⟨(utf8 front).length⟩)
    (hstop : String.Pos.Raw.IsValid (String.ofList (front ++ value ++ back))
      ⟨(utf8 (front ++ value)).length⟩)
    (hle : (utf8 front).length ≤ (utf8 (front ++ value)).length) :
    ((String.ofList (front ++ value ++ back)).slice ⟨_, hstart⟩ ⟨_, hstop⟩ hle).copy =
      String.ofList value := by
  have hfront : String.Pos.Splits ⟨_, hstart⟩ (String.ofList front)
      (String.ofList value ++ String.ofList back) := by
    refine ⟨?_, (rawEndPos_ofList front).symm⟩
    rw [List.append_assoc, String.ofList_append, String.ofList_append]
  have hback : String.Pos.Splits ⟨_, hstop⟩ (String.ofList front ++ String.ofList value)
      (String.ofList back) := by
    rw [← String.ofList_append]
    exact ⟨String.ofList_append, (rawEndPos_ofList (front ++ value)).symm⟩
  obtain ⟨_, hcopy⟩ := String.copy_slice_eq_iff_splits.2 ⟨_, _, hfront, hback⟩
  exact hcopy

/-! ## Octets of a character -/

/-- The octets of the characters that are not ASCII. -/
def IsHigh (b : UInt8) : Prop := 128 ≤ b.toNat

/-- A character has one octet that is its number, or only high octets. -/
theorem utf8EncodeChar_cases (c : Char) :
    (c.toNat < 128 ∧ String.utf8EncodeChar c = [c.toUInt8]) ∨
      (128 ≤ c.toNat ∧ ∀ b ∈ String.utf8EncodeChar c, IsHigh b) := by
  have hhigh : ∀ {m k : Nat}, k ∈ [128, 192, 224, 240] → m + k < 256 →
      IsHigh (UInt8.ofNat (m + k)) := by
    intro m k hk hlt
    show 128 ≤ (UInt8.ofNat (m + k)).toNat
    rw [UInt8.toNat_ofNat', Nat.mod_eq_of_lt hlt]
    simp only [List.mem_cons, List.not_mem_nil, or_false] at hk
    omega
  have hnat : c.val.toNat = c.toNat := rfl
  rw [String.utf8EncodeChar.eq_1, hnat]
  split
  next h =>
    refine .inl ⟨by omega, ?_⟩
    rw [← Char.toUInt8_val]
    rfl
  next h =>
    refine .inr ⟨by omega, ?_⟩
    have hnil : ∀ b ∈ ([] : List UInt8), IsHigh b := List.forall_mem_nil _
    split
    next =>
      rw [List.forall_mem_cons, List.forall_mem_cons]
      exact ⟨hhigh (by simp) (by omega), hhigh (by simp) (by omega), hnil⟩
    next =>
      split
      next =>
        rw [List.forall_mem_cons, List.forall_mem_cons, List.forall_mem_cons]
        exact ⟨hhigh (by simp) (by omega), hhigh (by simp) (by omega), hhigh (by simp) (by omega),
          hnil⟩
      next =>
        rw [List.forall_mem_cons, List.forall_mem_cons, List.forall_mem_cons, List.forall_mem_cons]
        exact ⟨hhigh (by simp) (by omega), hhigh (by simp) (by omega), hhigh (by simp) (by omega),
          hhigh (by simp) (by omega), hnil⟩

theorem utf8_cons_of_lt {c : Char} (h : c.toNat < 128) (cs : List Char) :
    utf8 (c :: cs) = c.toUInt8 :: utf8 cs := by
  rcases utf8EncodeChar_cases c with ⟨-, heq⟩ | ⟨hhigh, -⟩
  · rw [utf8_cons, heq, List.singleton_append]
  · omega

/-- No octets of a character begin those of another one. -/
theorem utf8EncodeChar_append_inj {c d : Char} {x y : List UInt8}
    (h : String.utf8EncodeChar c ++ x = String.utf8EncodeChar d ++ y) : c = d ∧ x = y := by
  have hbytes := congrArg List.toByteArray h
  rw [List.toByteArray_append, List.toByteArray_append] at hbytes
  have hdecode := congrArg (ByteArray.utf8DecodeChar? · 0) hbytes
  simp only [ByteArray.utf8DecodeChar?_utf8EncodeChar_append] at hdecode
  obtain rfl : c = d := Option.some.inj hdecode
  exact ⟨rfl, List.append_cancel_left h⟩

/-- A text whose octets stand at the front of those of another text stands at the front of it. -/
theorem utf8_prefix_utf8 {front cs : List Char} (h : utf8 front <+: utf8 cs) : front <+: cs := by
  induction front generalizing cs with
  | nil => exact List.nil_prefix
  | cons c front ih =>
      obtain ⟨rest, hrest⟩ := h
      rw [utf8_cons, List.append_assoc] at hrest
      cases cs with
      | nil =>
          have hnil := (List.append_eq_nil_iff.1 hrest).1
          exact absurd hnil String.utf8EncodeChar_ne_nil
      | cons d cs =>
          rw [utf8_cons] at hrest
          obtain ⟨rfl, htail⟩ := utf8EncodeChar_append_inj hrest
          exact (List.cons_prefix_cons).2 ⟨rfl, ih ⟨rest, htail⟩⟩

end Stencil.Text
