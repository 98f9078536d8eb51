import Stencil.Text.Search

/-!
# Punycode

A text as ASCII letters, digits and hyphens. The ASCII characters are written first, behind them,
after a hyphen, a number for every other character: how far the next insertion lies from the last
one, counted through all places of a text and all characters in turn. The numbers are written in
digits of base 36 with a varying weight, least digit first. `encode` writes a text and `decode?`
reads it back.
-/

namespace Stencil.Punycode

open Text

/-! ## Digits -/

/-- The digit of a number below 36. -/
def digit (n : Nat) : Char :=
  if n < 26 then Char.ofNat ('a'.toNat + n) else Char.ofNat ('0'.toNat + (n - 26))

/-- The value of a digit of either case. -/
def digitValue? (c : Char) : Option Nat :=
  if 'a' ≤ c ∧ c ≤ 'z' then some (c.toNat - 'a'.toNat)
  else if 'A' ≤ c ∧ c ≤ 'Z' then some (c.toNat - 'A'.toNat)
  else if '0' ≤ c ∧ c ≤ '9' then some (c.toNat - '0'.toNat + 26)
  else none

/-- From which value on the digit with weight index `k` is followed by others. -/
def threshold (bias k : Nat) : Nat :=
  if k ≤ bias then 1 else if bias + 26 ≤ k then 26 else k - bias

theorem threshold_lt (bias k : Nat) : threshold bias k < 36 := by
  unfold threshold; split <;> (try split) <;> omega

/-- How often a number is divided by 35 until it is at most 455, and what is left. -/
def reduce (times delta : Nat) : Nat × Nat :=
  if delta ≤ 455 then (times, delta) else reduce (times + 1) (delta / 35)
termination_by delta
decreasing_by omega

/-- The bias for the number behind `delta`, with which the text grew to `size` characters. -/
def adapt (delta size : Nat) (first : Bool) : Nat :=
  let delta := if first then delta / 700 else delta / 2
  let (times, delta) := reduce 0 (delta + delta / size)
  36 * times + 36 * delta / (delta + 38)

/-! ## Writing -/

/-- The digits of a number, from weight index `k` on. -/
def digits (bias k n : Nat) : List Char :=
  let t := threshold bias k
  if n < t then [digit n]
  else digit (t + (n - t) % (36 - t)) :: digits bias (k + 36) ((n - t) / (36 - t))
termination_by n
decreasing_by
  have ht : threshold bias k < 36 := threshold_lt bias k
  have h1 : 1 ≤ threshold bias k := by unfold threshold; split <;> (try split) <;> omega
  have : (n - threshold bias k) / (36 - threshold bias k) ≤ n - threshold bias k :=
    Nat.div_le_self _ _
  omega

/-- Where writing stands: the distance to write next, the bias, and how many characters are
written. -/
structure Place where
  delta : Nat
  bias : Nat
  written : Nat

/-- Passes a character of the text while the occurrences of `target` are written. -/
def pass (basics target : Nat) : List Char → Place → List Char × Place
  | [], p => ([], p)
  | c :: rest, p =>
    if c.toNat < target then pass basics target rest { p with delta := p.delta + 1 }
    else if c.toNat = target then
      let bias := adapt p.delta (p.written + 1) (p.written == basics)
      let (out, q) := pass basics target rest ⟨0, bias, p.written + 1⟩
      (digits p.bias 36 p.delta ++ out, q)
    else pass basics target rest p

/-- Writes the occurrences of ascending characters, the first of which is reached from `from_`. -/
def passes (basics : Nat) (text : List Char) : (next : Nat) → List Nat → Place → List Char
  | _, [], _ => []
  | next, target :: rest, p =>
    let delta := p.delta + (target - next) * (p.written + 1)
    let (out, p) := pass basics target text { p with delta }
    out ++ passes basics text (target + 1) rest { p with delta := p.delta + 1 }

/-- Whether a character is written as it is. -/
def isBasic (c : Char) : Bool := c.toNat < 128

/-- Puts a number in its place and drops it if it is there. -/
def insertSorted (n : Nat) : List Nat → List Nat
  | [] => [n]
  | m :: rest => if n < m then n :: m :: rest else if n = m then m :: rest else m :: insertSorted n rest

/-- The code points of the characters that are not basic, in order. -/
def targets (text : List Char) : List Nat :=
  (text.filter fun c => !isBasic c).foldr (fun c ns => insertSorted c.toNat ns) []

/-- Writes a text. -/
def encode (text : List Char) : List Char :=
  let basics := text.filter isBasic
  let front := if basics = [] then [] else basics ++ ['-']
  front ++ passes basics.length text 128 (targets text) ⟨0, 72, basics.length⟩

/-! ## Reading -/

/-- One number from the front of its digits, from weight index `k` on. -/
def number? (bias : Nat) : (k weight value : Nat) → List Char → Option (Nat × List Char)
  | _, _, _, [] => none
  | k, weight, value, c :: rest => do
    let d ← digitValue? c
    let value := value + d * weight
    let t := threshold bias k
    if d < t then some (value, rest) else number? bias (k + 36) (weight * (36 - t)) value rest

/-- What is left behind a number is shorter. -/
theorem length_of_number? {bias k weight value n : Nat} {cs rest : List Char}
    (h : number? bias k weight value cs = some (n, rest)) : rest.length < cs.length := by
  induction cs generalizing k weight value with
  | nil => simp [number?] at h
  | cons c cs ih =>
    simp only [number?, Option.bind_eq_bind, Option.bind_eq_some_iff] at h
    obtain ⟨d, -, h⟩ := h
    split at h
    · cases h; simp
    · have := ih h; simp; omega

/-- The character with a code point. -/
def charOfNat? (n : Nat) : Option Char :=
  if h : n.isValidChar then some (Char.ofNatAux n h) else none

/-- Inserts the characters of all numbers into a text; `state` counts the places passed and
`point` is the character of the last insertion. -/
def insertions? (out : List Char) (state point bias : Nat) (first : Bool) (cs : List Char) :
    Option (List Char) :=
  if cs = [] then some out
  else
    match _h : number? bias 36 1 0 cs with
    | none => none
    | some (delta, rest) =>
      let size := out.length + 1
      let state := state + delta
      let point := point + state / size
      let place := state % size
      match charOfNat? point with
      | none => none
      | some c =>
        insertions? (out.take place ++ c :: out.drop place) (place + 1) point
          (adapt delta size first) false rest
termination_by cs.length
decreasing_by exact length_of_number? (by assumption)

/-- Reads a text. -/
def decode? (cs : List Char) : Option (List Char) :=
  match cutLastChar? '-' cs with
  | some ([], _) => none
  | some (basics, rest) =>
    if basics.all isBasic then insertions? basics 0 128 72 true rest else none
  | none => insertions? [] 0 128 72 true cs

end Stencil.Punycode
