import Stencil.Proofs.FileSystem.ReadBack
import Stencil.Proofs.Json.Dictionary
import Stencil.Proofs.Json.Whole
import Stencil.Session

/-!
# A store is read back

A store that was saved to a path is opened from there with the entries it had. The text that is
written is a well-formed document of objects of scalars (`parse?_render`), it is not blank, and the
file that was written is the file that is read (`FileSystem.readText_of_provide`).
-/

namespace Stencil

namespace Scalar

/-- The scalars that the text of a session keeps: texts, truth values, nothing, and the whole
numbers below 10^15. -/
def Storable : Scalar → Prop
  | .number x => isWhole x = true ∧ wholePart x < 1000000000000000
  | _ => True

instance : DecidablePred Storable
  | .null | .bool _ | .text _ => .isTrue trivial
  | .number x =>
    inferInstanceAs (Decidable (isWhole x = true ∧ wholePart x < 1000000000000000))

theorem units_eq_wholePart {x : Binary64} (h : isWhole x = true) :
    x.units = wholePart x * Binary64.unitsPerOne := by
  have hmod : x.units % Binary64.unitsPerOne = 0 := by simpa [isWhole] using h
  exact (Nat.div_mul_cancel (Nat.dvd_of_mod_eq_zero hmod)).symm

theorem wellFormed_toJson {s : Scalar} (h : s.Storable) : s.toJson.WellFormed := by
  cases s with
  | null => exact .null
  | bool b => exact .bool b
  | number x => exact .number (Json.isSome_ofLiteral?_write (units_eq_wholePart h.1) h.2)
  | text s => exact Json.wellFormed_ofText s

/-- A scalar is read back as the scalar it was: the kind of its document tells its kind. -/
theorem ofJson?_toJson {s : Scalar} (h : s.Storable) : ofJson? s.toJson = some s := by
  cases s with
  | null => rfl
  | bool b => rfl
  | number x =>
    rw [toJson, ofJson?, Json.binary64?_write (units_eq_wholePart h.1) h.2]
    rfl
  | text s =>
    rw [toJson, Json.ofText, ofJson?, Json.text?_quote]
    rfl

end Scalar

namespace Session

variable {entries : Dict (Dict Scalar)} {session : Session}

/-- All values of a store are kept by its text. -/
def Storable (session : Session) : Prop :=
  ∀ endpoint name value, session.value? endpoint name = some value → value.Storable

theorem storable_empty (path? : Option String) : Storable ⟨.empty, path?⟩ := by
  intro endpoint name value h
  cases h

theorem Storable.set (h : session.Storable) (endpoint name : String) {value : Scalar}
    (hvalue : value.Storable) : (session.set endpoint name value).Storable := by
  intro e n v hv
  rw [value?_set] at hv
  split at hv
  · cases hv
    exact hvalue
  · exact h e n v hv

theorem Storable.of_mem (h : session.Storable) :
    ∀ e ∈ session.entries.toList, ∀ v ∈ e.2.toList, v.2.Storable := by
  intro e he v hv
  refine h e.1 v.1 v.2 ?_
  rw [value?, Dict.get?_of_mem he]
  exact Dict.get?_of_mem hv

theorem wellFormed_entries (h : ∀ e ∈ entries.toList, ∀ v ∈ e.2.toList, v.2.Storable) :
    (entries.toJson (·.toJson Scalar.toJson)).WellFormed :=
  entries.wellFormed_toJson fun e he =>
    e.2.wellFormed_toJson fun v hv => Scalar.wellFormed_toJson (h e he v hv)

theorem parse?_render (h : ∀ e ∈ entries.toList, ∀ v ∈ e.2.toList, v.2.Storable) :
    parse? (render entries) = some entries := by
  refine Option.bind_eq_some_iff.2 ⟨_, Json.parse?_pretty (wellFormed_entries h), ?_⟩
  refine asDict?_toJson entries fun e he => ?_
  exact asDict?_toJson e.2 fun v hv => Scalar.ofJson?_toJson (h e he v hv)

theorem provide_of_saveTo {fs fs' : FileSystem} {path : String}
    (h : session.saveTo fs path = .ok fs') :
    fs.provide path (render session.entries).toUTF8 = .ok fs' := by
  unfold saveTo at h
  generalize fs.provide path (render session.entries).toUTF8 = result at h
  cases result with
  | error cause => cases h
  | ok fs'' =>
    cases h
    rfl

/-- A store whose text is in a file is opened from there. -/
theorem load_of_provide {fs fs' : FileSystem} {path : String} (hstorable : session.Storable)
    (h : fs.provide path (render session.entries).toUTF8 = .ok fs') :
    load fs' path = .ok ⟨session.entries, some path⟩ := by
  have hentries := hstorable.of_mem
  have hblank : (Text.trim (render session.entries).toList).isEmpty = false := by
    rw [List.isEmpty_eq_false_iff, render, String.toList_ofList]
    exact Json.trim_pretty_ne_nil (wellFormed_entries hentries)
  rw [load, FileSystem.readText_of_provide h]
  simp only [hblank, parse?_render hentries]
  rfl

theorem path?_of_load {fs : FileSystem} {path : String} (h : load fs path = .ok session) :
    session.path? = some path := by
  unfold load at h
  split at h
  · cases h
    rfl
  · cases h
  · split at h
    · cases h
      rfl
    · split at h
      · cases h
        rfl
      · cases h

/-- A store is opened from where it was saved with all its entries: every name has the value it
had, which is of the kind it was. -/
theorem load_of_saveTo {fs fs' : FileSystem} {path : String} (hstorable : session.Storable)
    (hsave : session.saveTo fs path = .ok fs') :
    ∃ reopened, load fs' path = .ok reopened ∧
      reopened.entries = session.entries ∧ reopened.path? = some path ∧
      ∀ endpoint name, reopened.value? endpoint name = session.value? endpoint name ∧
        reopened.get? endpoint name = session.get? endpoint name := by
  have hload := load_of_provide hstorable (provide_of_saveTo hsave)
  exact ⟨_, hload, rfl, rfl, fun endpoint name => ⟨rfl, rfl⟩⟩

/-- Texts that read as numbers, words or nothing stay texts, beside the values they look like. -/
theorem load_of_saveTo_lookalikes :
    let fortyTwo : Binary64 := ⟨false, 5910974510923776, 1027, by decide⟩
    let session := ((((((Session.empty.set "" "a" (.text "42")).set "" "b" (.number fortyTwo)).set
      "" "c" (.text "null")).set "" "" .null).set "h/\"\\p" "a" (.text "true\n\x01é")).set
      "h/\"\\p" "b" (.number (.zero true))).set "h/\"\\p" "c" (.bool true)
    let path := "out/session.json"
    session.Storable ∧
    ∃ fs, session.saveTo (.empty ["home"]) path = .ok fs ∧
      ∃ reopened, load fs path = .ok reopened ∧ reopened.entries = session.entries ∧
        reopened.value? "" "a" = some (.text "42") ∧
        reopened.value? "" "b" = some (.number fortyTwo) ∧
        reopened.value? "" "c" = some (.text "null") ∧
        reopened.get? "h/\"\\p" "a" = some "true\n\x01é" := by
  intro fortyTwo session path
  have hstorable : session.Storable := by
    refine .set (.set (.set (.set (.set (.set (.set (storable_empty none) _ _ ?_) _ _ ?_) _ _ ?_)
      _ _ ?_) _ _ ?_) _ _ ?_) _ _ ?_ <;> decide +kernel
  have hok : (session.saveTo (.empty ["home"]) path).isOk = true := by decide +kernel
  obtain ⟨fs, hsave⟩ := exists_of_isOk hok
  obtain ⟨reopened, hload, hentries, -, hsame⟩ := load_of_saveTo hstorable hsave
  refine ⟨hstorable, fs, hsave, reopened, hload, hentries, ?_, ?_, ?_, ?_⟩
  · rw [(hsame "" "a").1]
    decide +kernel
  · rw [(hsame "" "b").1]
    decide +kernel
  · rw [(hsame "" "c").1]
    decide +kernel
  · rw [(hsame _ "a").2]
    decide +kernel

end Session

end Stencil
