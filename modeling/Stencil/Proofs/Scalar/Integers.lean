import Stencil.Proofs.Decimal.Roundest
import Stencil.Proofs.Environment.Acceptance
import Stencil.Proofs.Json.Whole
import Stencil.Proofs.Resolver.History
import Stencil.Proofs.Template.Placeholders
import Stencil.Session

/-!
# Integers

An integer of a configuration or of a session becomes the number of the binary64 format that it is
rounded to, and the text of that number is the roundest of the integers that are rounded to it
(`numberText_whole`). So an integer keeps its digits exactly if it is the roundest one itself
(`integers_keep_digits`); below 2^53 all do, and from there on some do not (`integer_loses_digit`).
-/

namespace Stencil

/-! ## Texts of integers -/

namespace Decimal

/-- An integer by its sign and its magnitude; zero may have either sign. -/
def signed (negative : Bool) (w : Nat) : Int := if negative then -w else w

/-- The digits of an integer with their sign. -/
def integerLiteral (negative : Bool) (w : Nat) : List Char :=
  (if negative then ['-'] else []) ++ Nat.toDigits 10 w

theorem ofInt_natCast (w : Nat) : ofInt w = String.ofList (Nat.toDigits 10 w) := rfl

theorem ofInt_neg {w : Nat} (h : 0 < w) :
    ofInt (-w) = String.ofList ('-' :: Nat.toDigits 10 w) := by
  have hneg : ¬ (0 : Int) ≤ -w := by omega
  show (-(w : Int)).repr = _
  rw [Int.repr_eq_if, if_neg hneg, Int.neg_neg, Int.toNat_natCast, ← String.toList_inj]
  simp [Nat.repr]

theorem ofInt_signed {w : Nat} (h : 0 < w) (negative : Bool) :
    ofInt (signed negative w) = String.ofList (integerLiteral negative w) := by
  cases negative with
  | true => exact ofInt_neg h
  | false => exact ofInt_natCast w

theorem ofInt_injective {a b : Int} (h : ofInt a = ofInt b) : a = b := by
  have hread := congrArg String.toInt? (show a.repr = b.repr from h)
  rw [Int.toInt?_repr, Int.toInt?_repr] at hread
  exact Option.some.inj hread

theorem signed_injective {negative : Bool} {p w : Nat} (h : signed negative p = signed negative w) :
    p = w := by
  cases negative with
  | true =>
      have hneg : -(p : Int) = -w := h
      omega
  | false => exact Int.ofNat_inj.1 h

/-- No brace stands in the text of an integer. -/
theorem brace_not_mem_ofInt (n : Int) : '{' ∉ (ofInt n).toList := by
  have hdigits : ∀ w, '{' ∉ Nat.toDigits 10 w := by
    intro w hmem
    exact absurd (Decimal.isDigit_of_mem_toDigits hmem) (by decide)
  obtain ⟨w, rfl | rfl⟩ := Int.eq_nat_or_neg n
  · rw [ofInt_natCast, String.toList_ofList]
    exact hdigits w
  · by_cases hw : w = 0
    · subst hw
      decide
    · rw [ofInt_neg (Nat.pos_of_ne_zero hw), String.toList_ofList]
      simpa using hdigits w

end Decimal

namespace Scalar

open Binary64 Decimal

variable {x : Binary64} {r w : Nat}

/-- The text of a whole number below 10^19 is the roundest integer that is read as it. -/
theorem numberText_whole (hx : x.units = r * unitsPerOne) (hr : r < 10 ^ 19) :
    ∃ p, Roundest x p ∧ numberText x = ofInt (signed x.negative p) := by
  have hwhole : isWhole x = true := by
    rw [isWhole, hx, Nat.mul_mod_left]
    rfl
  have hpart : wholePart x = r := by
    rw [wholePart, hx, Nat.mul_div_cancel _ unitsPerOne_pos]
  by_cases hsmall : r < 1000000000000000
  · refine ⟨r, roundest_of_lt hx (by omega), ?_⟩
    have hshort : isWhole x = true ∧ wholePart x < 1000000000000000 := by
      rw [hpart]
      exact ⟨hwhole, hsmall⟩
    rw [numberText, if_pos hshort, hpart, signed]
  · obtain ⟨p, hdenotes, hroundest⟩ := exists_roundest hx (by omega) hr
    have hp : 0 < p := pos_of_reads hx (by omega) hroundest.reads
    refine ⟨p, hroundest, ?_⟩
    rw [numberText, hpart, if_neg (fun h => hsmall h.2), ofInt_signed hp, integerLiteral,
      Layout.write_plain hp hdenotes]

/-- The text is that of an integer exactly if the integer is the roundest one. -/
theorem numberText_eq_iff (hx : x.units = r * unitsPerOne) (hr : r < 10 ^ 19) :
    numberText x = ofInt (signed x.negative w) ↔ Roundest x w := by
  obtain ⟨p, hroundest, htext⟩ := numberText_whole hx hr
  rw [htext]
  constructor
  · intro h
    rwa [← signed_injective (ofInt_injective h)]
  · intro h
    rw [hroundest.unique h]

/-- An integer of 64 bits is read as a whole number below 10^19. -/
theorem exists_number (negative : Bool) (hw : w ≤ 9223372036854775808) :
    ∃ x r, ofJson? (.number (integerLiteral negative w)) = some (.number x) ∧
      x.negative = negative ∧ Reads x w ∧ x.units = r * unitsPerOne ∧ r < 10 ^ 19 := by
  obtain ⟨x, hx⟩ := exists_ofDecimal?_natural negative (w := w) (by omega)
  have hsign := negative_of_natural hx
  obtain ⟨r, hr⟩ := exists_whole_of_natural hx
  refine ⟨x, r, ?_, hsign, ?_, hr, ?_⟩
  · have hbinary : Json.binary64? (integerLiteral negative w) = ofDecimal? negative w 0 := by
      rw [Json.binary64?, integerLiteral, Json.ofLiteral?_integer]
      exact Json.Number.toBinary64?_integer negative (Nat.lt_of_le_of_lt hw (by decide))
    rw [ofJson?, hbinary, hx]
    rfl
  · rw [reads_iff, hsign]
    exact hx
  · -- 2^63 is a number of the format, so nothing up to it is rounded beyond it
    have hunits := (exact_two_pow (by decide)).units_le hx (show w ≤ 2 ^ 63 from hw)
    rw [hr] at hunits
    have := Nat.le_of_mul_le_mul_right hunits unitsPerOne_pos
    omega

end Scalar

/-! ## The way into the program -/

/-- The text that is put in place of a name which stands for a text without braces. -/
theorem Resolver.process_of_template {r : Resolver} {inner : List Char} {text : String}
    (hinner : Template.Readable inner) (hcache : r.cache.get? (Template.expression inner) = none)
    (hpercent : (Template.expression inner).toList.head? ≠ some '%')
    (htemplate : r.bindings.template? (Template.expression inner) = some text)
    (htext : '{' ∉ text.toList) (s : Surroundings) (journal : Journal) :
    (r.process s (String.ofList (Template.write inner)) journal).1 = text := by
  have hstrip : stripPercent (Template.expression inner) = (Template.expression inner, false) := by
    rw [stripPercent]
    split
    next r heq =>
      rw [heq] at hpercent
      exact absurd rfl hpercent
    next => rfl
  have hpieces : Template.pieces text = text.toList.map .char := by
    refine Template.pieces_of_not_occurs ?_
    rw [Text.occurs, Option.isSome_eq_false_iff, Option.isNone_iff_eq_none,
      Option.eq_none_iff_forall_ne_some]
    rintro ⟨before, after⟩ hcut
    exact htext (by simp [Text.eq_append_of_cut? hcut])
  -- no piece of the text is a placeholder, so it takes no nesting at all
  have htop : ∀ st : State, st.cache.get? (Template.expression inner) = none →
      (resolveTop r.bindings s (Template.expression inner) st).1 = .ok text := by
    intro st hst
    simp only [resolveTop, resolveWith, hst, hstrip, lookup_of_template htemplate, depthLimit,
      nested, hpieces, expandNested_chars, encodeIf]
    simp
  have hresult := htop ⟨r.cache, journal⟩ hcache
  rw [process, Template.pieces_write hinner, expand]
  generalize resolveTop r.bindings s (Template.expression inner) ⟨r.cache, journal⟩ = result at *
  obtain ⟨_ | value, st⟩ := result
  · cases hresult
  · cases hresult
    simp [expand]

/-- A name that is looked up among variables. -/
def IsVariableName (name : String) : Prop :=
  name ≠ "" ∧ name.toList.head? ≠ some '$' ∧ name.toList.head? ≠ some '%' ∧
    RequestChain.isReference name = false

instance : DecidablePred IsVariableName := fun name =>
  inferInstanceAs (Decidable (name ≠ "" ∧ name.toList.head? ≠ some '$' ∧
    name.toList.head? ≠ some '%' ∧ RequestChain.isReference name = false))

namespace Scalar

open Binary64 Decimal Json

/-- Seen from an environment a name has a text, and the text is put in the place of the name. -/
def Substitutes (table : EnvironmentTable) (environment name text : String) : Prop :=
  table.get? environment name = some text ∧
    ∀ inner s journal, Template.Readable inner → Template.expression inner = name →
      IsVariableName name →
      ((Resolver.new table environment).process s (String.ofList (Template.write inner))
        journal).1 = text

/-- Where a configuration holds a literal, in an environment or among the shared entries, its table
has the text of a number. -/
def FromConfigurations (literal : List Char) (x : Binary64) : Prop :=
  ∀ content j table map name, IsText content j → Configuration.parse content = .ok table →
    map.Holds name (.number literal) →
    (∀ environment, ¬ Configuration.IsReserved environment → j.Holds environment map →
      Substitutes table environment name (numberText x)) ∧
    (Configuration.Shares j map → Substitutes table "" name (numberText x))

/-- Where a session holds a literal, it has a number. -/
def FromSessions (literal : List Char) (x : Binary64) : Prop :=
  ∀ (fs : FileSystem) path content j session endpoint map name, fs.readText path = .ok content →
    IsText content j → Session.load fs path = .ok session → j.Holds endpoint map →
    map.Holds name (.number literal) →
    session.value? endpoint name = some (.number x) ∧
      session.get? endpoint name = some (numberText x)

variable {literal : List Char} {x : Binary64} {n : Int}

theorem substitutes_of_get? {table : EnvironmentTable} {environment name text : String}
    (hget : table.get? environment name = some text) (htext : '{' ∉ text.toList) :
    Substitutes table environment name text := by
  refine ⟨hget, fun inner s journal hinner hexpression hvariable => ?_⟩
  obtain ⟨hne, hdollar, hpercent, hreference⟩ := hvariable
  subst hexpression
  refine Resolver.process_of_template hinner rfl hpercent ?_ htext s journal
  rw [Resolver.Bindings.template?, if_neg]
  -- a new resolver has no variables of a file, so the environment answers
  · show (none : Option String).or (table.get? environment _) = _
    rw [hget]
    rfl
  · simp [hne, hdollar, hreference]

theorem fromConfigurations (hread : ofJson? (.number literal) = some (.number x))
    (htext : '{' ∉ (numberText x).toList) : FromConfigurations literal x := by
  intro content j table map name hj hparse hname
  obtain ⟨hvalue, hofJson⟩ := Configuration.ofJson_of_parse hj hparse
  obtain ⟨hacceptable, hdescribes⟩ := Configuration.describes_of_ofJson hvalue hofJson
  have hsays : Configuration.Says map name (numberText x) := ⟨_, _, hname, hread, rfl⟩
  refine ⟨fun environment hreserved hmap => substitutes_of_get? ?_ htext,
    fun hshares => substitutes_of_get? ?_ htext⟩
  · obtain ⟨env, henv, htexts⟩ :=
      Configuration.exists_environment_of_ofJson hvalue hofJson hreserved hmap
    have hempty : environment ≠ "" := by
      rintro rfl
      obtain ⟨c, rest, heq, -⟩ := (hacceptable.fits "" map hmap).name hreserved
      cases heq
    have hown : table.own? environment name = some (numberText x) := by
      rw [EnvironmentTable.own?, henv]
      exact (htexts name _).2 hsays
    rw [EnvironmentTable.get?, if_neg hempty, hown]
    rfl
  · rw [EnvironmentTable.get?, if_pos rfl]
    exact (hdescribes.shared name _).2 ⟨map, hshares, hsays⟩

theorem fromSessions (hread : ofJson? (.number literal) = some (.number x)) :
    FromSessions literal x := by
  intro fs path content j session endpoint map name hcontent hj hload hmap hname
  have hblank : (Text.trim content.toList).isEmpty = false := by
    obtain ⟨front, back, source, htext, -⟩ := hj
    rw [htext, Source.trim_render]
    obtain ⟨c, rest, hrender, -⟩ := source.render_eq_cons
    rw [hrender]
    rfl
  rw [Session.load, hcontent] at hload
  simp only [hblank] at hload
  cases hparse : Session.parse? content with
  | none =>
      rw [hparse] at hload
      cases hload
  | some entries =>
      rw [hparse] at hload
      cases hload
      rw [Session.parse?, parse?_eq_some_iff.2 hj] at hparse
      obtain ⟨values, hvalues, hentry⟩ := exists_read_of_asDict? hparse hmap
      obtain ⟨value, hvalue, hget⟩ := exists_read_of_asDict? hvalues hname
      rw [hread] at hvalue
      cases hvalue
      have hfound : Session.value? ⟨entries, some path⟩ endpoint name = some (.number x) := by
        rw [Session.value?, hentry]
        exact hget
      refine ⟨hfound, ?_⟩
      rw [Session.get?, hfound]
      rfl

/-- Integers that are written as plain literals. Both ways into the program give the number that an
integer is rounded to, and the text of this number, which is put in place of the name, is that of
the integer exactly if the integer is the roundest of those that are read as the number. Below 2^53
all integers are; of the others the roundest one takes the place. -/
theorem integers_keep_digits (n : Int) (hmin : -9223372036854775808 ≤ n)
    (hmax : n < 9223372036854775808) (negative : Bool) (w : Nat) (hn : n = signed negative w) :
    ∃ x, ofJson? (.number (integerLiteral negative w)) = some (.number x) ∧
      FromConfigurations (integerLiteral negative w) x ∧
      FromSessions (integerLiteral negative w) x ∧
      (numberText x = ofInt n ↔ Roundest x w) ∧
      (w < 9007199254740992 → numberText x = ofInt n) ∧
      ∃ p, Roundest x p ∧ numberText x = ofInt (signed negative p) := by
  have hw : w ≤ 9223372036854775808 := by
    subst hn
    cases negative with
    | true =>
        have hlow : -9223372036854775808 ≤ -(w : Int) := hmin
        omega
    | false =>
        have hhigh : (w : Int) < 9223372036854775808 := hmax
        omega
  obtain ⟨x, r, hread, hsign, hreads, hx, hr⟩ := exists_number negative hw
  have hiff := numberText_eq_iff (w := w) hx hr
  obtain ⟨p, hroundest, htext⟩ := numberText_whole hx hr
  rw [hsign, ← hn] at hiff
  have hbrace : '{' ∉ (numberText x).toList := by
    rw [htext]
    exact brace_not_mem_ofInt _
  rw [hsign] at htext
  refine ⟨x, hread, fromConfigurations hread hbrace, fromSessions hread, hiff, fun hlt => ?_,
    p, hroundest, htext⟩
  rw [hiff]
  exact roundest_of_lt (units_of_natural (reads_iff.1 hreads) hlt) hlt

/-- A negative number of four digits, from the text of a configuration into that of a template. -/
theorem integers_keep_digits_offset :
    let content := "\x7b\"dev\":\x7b\"offset\":-8080\x7d\x7d"
    ∃ table, Configuration.parse content = .ok table ∧
      table.get? "dev" "offset" = some "-8080" ∧
      ((Resolver.new table "dev").process .bare "\x7b\x7b offset \x7d\x7d" []).1 = "-8080" := by
  intro content
  obtain ⟨x, -, hconfigurations, -, -, hsmall, -⟩ :=
    integers_keep_digits (-8080) (by decide) (by decide) true 8080 rfl
  have htext : numberText x = "-8080" := hsmall (by decide)
  let map := Json.object [("offset".toList, .number "-8080".toList)]
  have hj : IsText content (.object [("dev".toList, map)]) := parse?_eq_some_iff.1 (by cbv)
  have hok : (Configuration.parse content).isOk = true := by decide +kernel
  obtain ⟨table, htable⟩ := exists_of_isOk hok
  obtain ⟨henvironment, -⟩ := hconfigurations content _ table map "offset" hj htable
    ⟨[], "offset".toList, [], rfl, by decide, by simp⟩
  obtain ⟨hget, hprocess⟩ := henvironment "dev" (by decide)
    ⟨[], "dev".toList, [], rfl, by decide, by simp⟩
  rw [htext] at hget hprocess
  exact ⟨table, htable, hget, hprocess " offset ".toList .bare [] (fun rest => rfl) (by decide)
    (by decide)⟩

/-- The first integer that is not kept: between 2^53 and 2^53 + 2 there is no number. -/
theorem integer_loses_digit :
    let content := "\x7b\"dev\":\x7b\"id\":9007199254740993\x7d\x7d"
    (¬ ∀ (n : Int), -9223372036854775808 ≤ n → n < 9223372036854775808 → ∀ negative w,
      n = signed negative w → ∀ x,
        ofJson? (.number (integerLiteral negative w)) = some (.number x) →
        numberText x = ofInt n) ∧
    ∃ table, Configuration.parse content = .ok table ∧
      table.get? "dev" "id" = some "9007199254740992" := by
  intro content
  constructor
  · intro h
    obtain ⟨x, -, hread, -⟩ := exists_number false (w := 9007199254740993) (by decide)
    have htext := h 9007199254740993 (by decide) (by decide) false 9007199254740993 rfl x hread
    have hread' : (ofJson? (.number (integerLiteral false 9007199254740993))).map toText =
        some "9007199254740992" := by decide +kernel
    rw [hread, Option.map_some, toText, htext] at hread'
    exact absurd hread' (by decide)
  · have hseen : ((Configuration.parse content).toOption.bind fun table =>
        table.get? "dev" "id") = some "9007199254740992" := by decide +kernel
    obtain ⟨table, htable, hget⟩ := Option.bind_eq_some_iff.1 hseen
    exact ⟨table, eq_ok_of_toOption htable, hget⟩

end Scalar

end Stencil
