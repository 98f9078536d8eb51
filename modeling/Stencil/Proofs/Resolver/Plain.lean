import Stencil.Proofs.Resolver.Lookup
import Stencil.Proofs.Template.Placeholders

/-!
# Plain rendering

What a template means without a cache, a limit of depth or a journal: every placeholder becomes
the value of its expression, and one without a value stays (`Plain.render`). The room of a
rendering bounds how deep values nest in it; where a template nests within the room, more room
changes nothing (`Plain.render_of_nests`).

`Bindings.nests` measures nesting, `Reaches` says which expressions a rendering can meet. The
rendering of a template from which no random function is reached is the same at all times, given
a user who gives the same answer to the same question (`answer_steady`).
-/

namespace Stencil.Resolver

open Text

/-! ## Nesting and reachability -/

/-- Whether values nest at most `n` deep in a template: none at all holds two opening braces in a
row, or all the variables that it names nest one less. -/
def Bindings.nests (b : Bindings) : (n : Nat) → String → Bool
  | 0, text => !occurs ['{', '{'] text.toList
  | n + 1, text => (Template.unresolved text).all fun e =>
      (b.template? (stripPercent e).1).all (Bindings.nests b n)

/-- Whether the template of an expression, if it has one, nests at most `n` deep. -/
def Bindings.nestsBelow (b : Bindings) (n : Nat) (e : String) : Bool :=
  (b.template? (stripPercent e).1).all (b.nests n)

/-- The expressions that the evaluation of a template can meet. -/
inductive Reaches (b : Bindings) : String → String → Prop
  | here {text e} : e ∈ Template.unresolved text → Reaches b text e
  | through {text e value e'} : e ∈ Template.unresolved text →
      b.template? (stripPercent e).1 = some value → Reaches b value e' → Reaches b text e'

/-- Whether an expression without its percent sign calls a function that draws a random number. -/
def callsRandom (name : String) : Bool :=
  match name.toList.head?, Arguments.split name with
  | some '$', function :: _ => function ∈ ["$guid", "$uuid", "$randomInt"]
  | _, _ => false

/-- Whether an expression draws a random number itself. -/
def drawsRandom (e : String) : Bool := callsRandom (stripPercent e).1

/-- What holds of every expression that the evaluation of a template can meet. -/
def Bindings.Everywhere (b : Bindings) (p : String → Prop) (text : String) : Prop :=
  ∀ e, Reaches b text e → p e

/-- What holds of an expression and of all that the evaluation of its template can meet. -/
def Bindings.EverywhereAt (b : Bindings) (p : String → Prop) (e : String) : Prop :=
  p e ∧ ∀ value, b.template? (stripPercent e).1 = some value → b.Everywhere p value

/-- No random number is drawn where a template is evaluated. -/
def Bindings.Calm (b : Bindings) (text : String) : Prop :=
  b.Everywhere (fun e => drawsRandom e = false) text

/-- No random number is drawn where an expression is resolved. -/
def Bindings.CalmAt (b : Bindings) (e : String) : Prop :=
  b.EverywhereAt (fun e => drawsRandom e = false) e

variable {b : Bindings} {s : Surroundings}

theorem Bindings.nestsBelow_of_nests {n : Nat} {text : String} (h : b.nests (n + 1) text = true)
    {inner : List Char} (hmem : .span inner ∈ Template.pieces text) :
    b.nestsBelow n (Template.expression inner) = true :=
  List.all_eq_true.1 h _ (Template.mem_unresolved.2 ⟨inner, hmem, rfl⟩)

theorem Bindings.nests_of_nestsBelow {n : Nat} {e value : String}
    (h : b.nestsBelow n e = true) (hvalue : b.template? (stripPercent e).1 = some value) :
    b.nests n value = true := by
  rw [nestsBelow, hvalue] at h
  exact h

theorem Bindings.Everywhere.at {p : String → Prop} {text : String} (h : b.Everywhere p text)
    {inner : List Char} (hmem : .span inner ∈ Template.pieces text) :
    b.EverywhereAt p (Template.expression inner) := by
  have hexpr : Template.expression inner ∈ Template.unresolved text :=
    Template.mem_unresolved.2 ⟨inner, hmem, rfl⟩
  refine ⟨h _ (.here hexpr), ?_⟩
  intro value hvalue e he
  exact h e (.through hexpr hvalue he)

/-- What holds of the expressions in a template and below them holds everywhere in it. -/
theorem Bindings.everywhere_of_at {p : String → Prop} {text : String}
    (h : ∀ e ∈ Template.unresolved text, b.EverywhereAt p e) : b.Everywhere p text := by
  intro e he
  cases he with
  | here hmem => exact (h e hmem).1
  | through hmem hvalue he => exact (h _ hmem).2 _ hvalue e he

/-- The text of a placeholder nests one more than the value of its expression. -/
theorem Bindings.nests_write {inner : List Char} (h : Template.Readable inner) (n : Nat) :
    b.nests (n + 1) (String.ofList (Template.write inner)) =
      b.nestsBelow n (Template.expression inner) := by
  rw [nests, Template.unresolved_write h, List.all_cons, List.all_nil, Bool.and_true]
  rfl

theorem Bindings.calm_write {inner : List Char} (h : Template.Readable inner)
    (hcalm : b.CalmAt (Template.expression inner)) :
    b.Calm (String.ofList (Template.write inner)) := by
  refine everywhere_of_at ?_
  intro e he
  rw [Template.unresolved_write h, List.mem_singleton] at he
  exact he ▸ hcalm

/-- Checks that values nest at most `n` deep in a template and that all expressions that its
evaluation can meet pass a check. -/
def Bindings.check (b : Bindings) (p : String → Bool) : (n : Nat) → String → Bool
  | 0, text => !occurs ['{', '{'] text.toList
  | n + 1, text => (Template.unresolved text).all fun e =>
      p e && (b.template? (stripPercent e).1).all (Bindings.check b p n)

theorem Bindings.nests_of_check {p : String → Bool} {n : Nat} {text : String}
    (h : b.check p n text = true) : b.nests n text = true := by
  induction n generalizing text with
  | zero => exact h
  | succ n ih =>
      rw [nests, List.all_eq_true]
      intro e he
      have hcheck := List.all_eq_true.1 h e he
      rw [Bool.and_eq_true, Option.all_eq_true] at hcheck
      rw [Option.all_eq_true]
      intro value hvalue
      exact ih (hcheck.2 value hvalue)

theorem Bindings.everywhere_of_check {p : String → Bool} {q : String → Prop}
    (hp : ∀ e, p e = true → q e) {n : Nat} {text : String} (h : b.check p n text = true) :
    b.Everywhere q text := by
  induction n generalizing text with
  | zero =>
      refine everywhere_of_at ?_
      intro e he
      rw [Template.unresolved_of_not_occurs (by simpa [check] using h)] at he
      cases he
  | succ n ih =>
      refine everywhere_of_at ?_
      intro e he
      have hcheck := List.all_eq_true.1 h e he
      rw [Bool.and_eq_true, Option.all_eq_true] at hcheck
      refine ⟨hp e hcheck.1, ?_⟩
      intro value hvalue
      exact ih (hcheck.2 value hvalue)

/-- Checks that values nest and that no random number is drawn. -/
def Bindings.tame (b : Bindings) (n : Nat) (text : String) : Bool :=
  b.check (fun e => !drawsRandom e) n text

theorem Bindings.calm_of_tame {n : Nat} {text : String} (h : b.tame n text = true) :
    b.Calm text :=
  everywhere_of_check (fun _ he => Bool.not_eq_eq_eq_not.1 he) h

/-! ## Rendering -/

namespace Plain

/-- The value of an expression; `render` renders the template that a name stands for. -/
def value (b : Bindings) (s : Surroundings) (render : String → String) (e : String) :
    Option String :=
  let found := match b.template? (stripPercent e).1 with
    | some template => some (render template)
    | none => (answer b s (stripPercent e).1 []).1.toOption
  found.map (encodeIf (stripPercent e).2)

/-- Puts values in the place of expressions; a placeholder without a value stays. -/
def fill (value : String → Option String) : List (Piece (List Char)) → List Char
  | [] => []
  | .char c :: rest => c :: fill value rest
  | .span inner :: rest =>
    match value (Template.expression inner) with
    | some v => v.toList ++ fill value rest
    | none => Template.write inner ++ fill value rest

/-- Renders a template in which values nest at most `room` deep. -/
def render (b : Bindings) (s : Surroundings) : (room : Nat) → String → String
  | 0, text => text
  | room + 1, text => String.ofList (fill (value b s (render b s room)) (Template.pieces text))

theorem value_of_template {render : String → String} {e template : String}
    (h : b.template? (stripPercent e).1 = some template) :
    value b s render e = some (encodeIf (stripPercent e).2 (render template)) := by
  simp only [value, h, Option.map_some]

theorem value_of_leaf {render : String → String} {e : String}
    (h : b.template? (stripPercent e).1 = none) :
    value b s render e = ((answer b s (stripPercent e).1 []).1.toOption).map
      (encodeIf (stripPercent e).2) := by
  simp only [value, h]

theorem value_of_error {render : String → String} {e : String} {err : LookupError}
    (h : b.template? (stripPercent e).1 = none)
    (herr : (answer b s (stripPercent e).1 []).1 = .error err) : value b s render e = none := by
  rw [value_of_leaf h, herr]
  rfl

theorem fill_congr {f g : String → Option String} {ps : List (Piece (List Char))}
    (h : ∀ inner, .span inner ∈ ps →
      f (Template.expression inner) = g (Template.expression inner)) : fill f ps = fill g ps := by
  induction ps with
  | nil => rfl
  | cons piece rest ih =>
      have hrest := ih fun inner hmem => h inner (List.mem_cons_of_mem _ hmem)
      cases piece with
      | char c => rw [fill, fill, hrest]
      | span inner => rw [fill, fill, h inner List.mem_cons_self, hrest]

theorem fill_chars (f : String → Option String) (cs : List Char) :
    fill f (cs.map .char) = cs := by
  induction cs with
  | nil => rfl
  | cons c cs ih => rw [List.map_cons, fill, ih]

/-- A template without two opening braces in a row is its own rendering. -/
theorem render_of_not_occurs {text : String} (h : occurs ['{', '{'] text.toList = false)
    (room : Nat) : render b s room text = text := by
  cases room with
  | zero => rfl
  | succ room =>
      rw [render, Template.pieces, Template.pieces_of_not_occurs h, fill_chars,
        String.ofList_toList]

/-- More room than a template needs changes nothing. -/
theorem render_of_nests {n room : Nat} {text : String} (h : b.nests n text = true)
    (hroom : n ≤ room) : render b s room text = render b s n text := by
  induction n generalizing room text with
  | zero =>
      have hocc : occurs ['{', '{'] text.toList = false := by simpa [Bindings.nests] using h
      rw [render_of_not_occurs hocc, render_of_not_occurs hocc]
  | succ n ih =>
      -- both rooms are left by one step, so the variables in the template nest within what remains
      obtain ⟨room, rfl⟩ : ∃ k, room = k + 1 := ⟨room - 1, by omega⟩
      rw [render, render]
      refine congrArg String.ofList (fill_congr ?_)
      intro inner hmem
      have hbelow := Bindings.nestsBelow_of_nests h hmem
      cases htemplate : b.template? (stripPercent (Template.expression inner)).1 with
      | none => rw [value_of_leaf htemplate, value_of_leaf htemplate]
      | some template =>
          have hnests := Bindings.nests_of_nestsBelow hbelow htemplate
          rw [value_of_template htemplate, value_of_template htemplate,
            ih hnests (by omega)]

theorem value_of_nestsBelow {n room : Nat} {e : String} (h : b.nestsBelow n e = true)
    (hroom : n ≤ room) : value b s (render b s room) e = value b s (render b s n) e := by
  cases htemplate : b.template? (stripPercent e).1 with
  | none => rw [value_of_leaf htemplate, value_of_leaf htemplate]
  | some template =>
      have hnests := Bindings.nests_of_nestsBelow h htemplate
      rw [value_of_template htemplate, value_of_template htemplate, render_of_nests hnests hroom]

end Plain

end Stencil.Resolver

/-! ## Steady answers -/

namespace Stencil

/-- Whether the user, if there is one, answers a question the same way whenever it is asked. -/
def Surroundings.Steady (s : Surroundings) : Prop :=
  ∀ prompter, s.prompter = some prompter → ∀ i j p, prompter i p = prompter j p

namespace SystemFunction

/-- The random functions are those whose names `callsRandom` lists. -/
theorem name_of_ofName? {name : String} {f : SystemFunction} (h : ofName? name = some f) :
    f.name = name := by
  have hfound := List.find?_some h
  exact of_decide_eq_true hfound

theorem apply_steady {s : Surroundings} (hs : s.Steady) (ctx : SystemContext)
    {f : SystemFunction} (hf : f ≠ .guid ∧ f ≠ .uuid ∧ f ≠ .randomInt) (args : List String)
    (j j' : Journal) : (f.apply ctx s args j).1 = (f.apply ctx s args j').1 := by
  cases f with
  | guid => exact absurd rfl hf.1
  | uuid => exact absurd rfl hf.2.1
  | randomInt => exact absurd rfl hf.2.2
  | timestamp => rfl
  | datetime => rfl
  | localDatetime => rfl
  | processEnv => rfl
  | dotenv => rfl
  | prompt =>
      cases args with
      | nil => rfl
      | cons name description =>
          cases hp : s.prompter with
          | none => simp [apply, answer, hp]
          | some prompter =>
              have hsame := hs prompter hp j.asked j'.asked (question name description)
              simp only [apply, answer, hp, Surroundings.ask, hsame]
              cases prompter j'.asked (question name description) <;> rfl

/-- A call that draws no random number gives the same result at all times. -/
theorem call_steady {s : Surroundings} (hs : s.Steady) (ctx : SystemContext) {name : String}
    (hname : name.toList.head? = some '$') (hrandom : Resolver.callsRandom name = false)
    (j j' : Journal) : (call ctx s name j).1 = (call ctx s name j').1 := by
  unfold call
  cases hsplit : Arguments.split name with
  | nil => rfl
  | cons function args =>
      have hnot : function ∉ ["$guid", "$uuid", "$randomInt"] := by
        simpa [Resolver.callsRandom, hname, hsplit] using hrandom
      dsimp only
      split
      · next r hr =>
        unfold applyNamed
        cases hf : ofName? (String.ofList r) with
        | none => rfl
        | some f =>
            refine apply_steady hs ctx ?_ args j j'
            have hfun : function = "$" ++ f.name := by
              rw [name_of_ofName? hf, ← String.toList_inj, hr]
              simp
            refine ⟨?_, ?_, ?_⟩ <;>
            · rintro rfl
              exact hnot (hfun ▸ by decide)
      · rfl

end SystemFunction

namespace Resolver

/-- The answer of a leaf that draws no random number is the same at all times. -/
theorem answer_steady {s : Surroundings} (hs : s.Steady) (b : Bindings) {name : String}
    (hrandom : callsRandom name = false) (j j' : Journal) :
    (answer b s name j).1 = (answer b s name j').1 := by
  unfold answer
  split
  · rfl
  · split
    next hname =>
      show (SystemFunction.call b.context s name j).1.map Variable.value =
        (SystemFunction.call b.context s name j').1.map Variable.value
      rw [SystemFunction.call_steady hs b.context hname hrandom j j']
    next =>
      split
      · rfl
      · rfl

end Resolver

end Stencil
