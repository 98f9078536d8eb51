import Stencil.Proofs.Json.Dictionary
import Stencil.Proofs.Json.Whole
import Stencil.Response

/-!
# Tables and responses are read back

The document of a table holds dictionaries, whose entries may be written in any order; it is a
`Document` of the table for every such order. Whatever the order, the table is read back from the
text of the document, and a response is read back from the text of its own
(`documents_read_back`).
-/

namespace Stencil

/-! ## Records -/

namespace Json

/-- An object with the fields of a record. -/
def record (fields : List (String × Json)) : Json := .object (fields.map fun f => member f.1 f.2)

/-- The fields of a record are found among its members by their names. -/
theorem fields?_record (names : List String) (fields : List (String × Json)) :
    fields? names (record fields) = names.mapM fun name => only? name fields := by
  have hmembers : asMembers? (record fields) = some (fields.map id) :=
    mapM_map_eq_some fun f _ => by simp [member]
  rw [List.map_id] at hmembers
  rw [fields?, hmembers]
  · rfl
  · intro items h
    cases h

theorem wellFormed_record {fields : List (String × Json)} (h : ∀ f ∈ fields, f.2.WellFormed) :
    (record fields).WellFormed := by
  refine .object ?_ ?_
  · intro m hm
    obtain ⟨f, -, rfl⟩ := List.mem_map.1 hm
    exact Quoted.isStringLiteral_quote f.1.toList
  · intro m hm
    obtain ⟨f, hf, rfl⟩ := List.mem_map.1 hm
    exact h f hf

@[simp] theorem asText?_ofText (s : String) : asText? (ofText s) = some s := text?_quote s

/-- An object of texts. -/
theorem asDict?_texts {d : Dict String} {j : Json}
    (h : d.Document (fun text v => v = ofText text) j) : asDict? asText? j = some d := by
  refine asDict?_of_document h ?_
  intro text v hv
  rw [hv, asText?_ofText]

theorem wellFormed_texts {d : Dict String} {j : Json}
    (h : d.Document (fun text v => v = ofText text) j) : j.WellFormed := by
  refine h.wellFormed ?_
  intro text v hv
  rw [hv]
  exact wellFormed_ofText text

end Json

open Json

/-! ## Environments -/

namespace Environment

/-- The name of an environment and its entries in any order. -/
def Document (env : Environment) (j : Json) : Prop :=
  ∃ entries, env.entries.Document (fun text v => v = ofText text) entries ∧
    j = record [("name", ofText env.name), ("variables", entries)]

variable {env : Environment} {j : Json}

theorem document_toJson (env : Environment) : env.Document env.toJson :=
  ⟨_, env.entries.document_toJson fun _ _ => rfl, rfl⟩

theorem Document.wellFormed (h : env.Document j) : j.WellFormed := by
  obtain ⟨entries, hentries, rfl⟩ := h
  apply wellFormed_record
  simp [wellFormed_ofText, wellFormed_texts hentries]

theorem ofJson?_of_document (h : env.Document j) : ofJson? j = some env := by
  obtain ⟨entries, hentries, rfl⟩ := h
  simp [ofJson?, fields?_record, only?, asDict?_texts hentries]

end Environment

/-! ## Tables -/

namespace EnvironmentTable

/-- The environments and the shared entries of a table, each in any order, and the environment to
select if there is one. -/
def Document (table : EnvironmentTable) (j : Json) : Prop :=
  ∃ environments shared, table.environments.Document Environment.Document environments ∧
    table.shared.Document (fun text v => v = ofText text) shared ∧
    j = record ([("environments", environments), ("shared", shared)] ++
      table.default?.elim [] fun name => [("default_environment", ofText name)])

variable {table : EnvironmentTable} {j : Json}

theorem document_toJson (table : EnvironmentTable) : table.Document table.toJson := by
  refine ⟨_, _, table.environments.document_toJson fun e _ => e.2.document_toJson,
    table.shared.document_toJson fun _ _ => rfl, ?_⟩
  rw [toJson]
  cases table.default? <;> rfl

theorem Document.wellFormed (h : table.Document j) : j.WellFormed := by
  obtain ⟨environments, shared, henvironments, hshared, rfl⟩ := h
  have hall : environments.WellFormed :=
    henvironments.wellFormed fun _ _ hdocument => hdocument.wellFormed
  apply wellFormed_record
  cases table.default? <;> simp [wellFormed_ofText, wellFormed_texts hshared, hall]

theorem ofJson?_of_document (h : table.Document j) : ofJson? j = some table := by
  obtain ⟨environments, shared, henvironments, hshared, rfl⟩ := h
  have hall : asDict? Environment.ofJson? environments = some table.environments :=
    asDict?_of_document henvironments fun _ _ hdocument =>
      Environment.ofJson?_of_document hdocument
  obtain ⟨environments', shared', default?⟩ := table
  cases default? with
  | none => simp [ofJson?, fields?_record, only?, hall, asDict?_texts hshared]
  | some name =>
    have hname : optionalText? (ofText name) = some (some name) := by
      show (asText? (ofText name)).map some = _
      rw [asText?_ofText]
      rfl
    simp [ofJson?, fields?_record, only?, hall, asDict?_texts hshared, hname]

end EnvironmentTable

/-! ## Responses -/

namespace Response

theorem statusOfJson?_toDigits {status : Nat} (h : status < 65536) :
    statusOfJson? (.number (Nat.toDigits 10 status)) = some ⟨status, h⟩ := by
  have hliteral : Number.ofLiteral? (Nat.toDigits 10 status) =
      some ⟨false, Nat.toDigits 10 status, [], none⟩ := ofLiteral?_integer false status
  simp [statusOfJson?, hliteral, Number.toNatBelow?, Decimal.natural?_toDigits, h]

theorem headersOfJson?_toJson (headers : List (String × String)) :
    headersOfJson? (.array (headers.map headerToJson)) = some headers := by
  have hheaders : (headers.map headerToJson).mapM headerOfJson? = some (headers.map id) :=
    mapM_map_eq_some fun header _ => by simp [headerToJson, headerOfJson?]
  rw [List.map_id] at hheaders
  exact hheaders

theorem wellFormed_toJson (response : Response) : response.toJson.WellFormed := by
  have hstatus : (Number.ofLiteral? (Nat.toDigits 10 response.status)).isSome := by
    have hliteral : Number.ofLiteral? (Nat.toDigits 10 response.status) =
        some ⟨false, Nat.toDigits 10 response.status, [], none⟩ :=
      ofLiteral?_integer false response.status
    rw [hliteral]
    rfl
  have hheaders : (Json.array (response.headers.map headerToJson)).WellFormed := by
    refine .array ?_
    intro item hitem
    obtain ⟨header, -, rfl⟩ := List.mem_map.1 hitem
    refine .array ?_
    simp [wellFormed_ofText]
  show (record [("status_code", .number (Nat.toDigits 10 response.status)),
    ("headers", .array (response.headers.map headerToJson)),
    ("body", ofText response.body)]).WellFormed
  apply wellFormed_record
  simp [wellFormed_ofText, hheaders, WellFormed.number hstatus]

theorem ofJson?_toJson (response : Response) : ofJson? response.toJson = some response := by
  have hfields := fields?_record ["status_code", "headers", "body"]
    [("status_code", .number (Nat.toDigits 10 response.status)),
      ("headers", .array (response.headers.map headerToJson)), ("body", ofText response.body)]
  have hrecord : fields? ["status_code", "headers", "body"] response.toJson =
      some [some (.number (Nat.toDigits 10 response.status)),
        some (.array (response.headers.map headerToJson)), some (ofText response.body)] :=
    hfields.trans (by simp [only?])
  simp [ofJson?, hrecord, statusOfJson?_toDigits response.status_lt, headersOfJson?_toJson]

end Response

/-! ## Texts -/

/-- A table is read back from its document, with the entries of its dictionaries in any order, and
a response from its own, with its headers in their order. -/
theorem documents_read_back (table : EnvironmentTable) (response : Response) :
    (table.Document table.toJson ∧ ∀ j, table.Document j →
      EnvironmentTable.parse? (String.ofList j.compact) = some table ∧
        EnvironmentTable.parse? (String.ofList j.pretty) = some table) ∧
    Response.parse? (String.ofList response.toJson.compact) = some response ∧
      Response.parse? (String.ofList response.toJson.pretty) = some response := by
  refine ⟨⟨table.document_toJson, ?_⟩, ?_, ?_⟩
  · intro j hj
    have hread := EnvironmentTable.ofJson?_of_document hj
    refine ⟨?_, ?_⟩
    · rw [EnvironmentTable.parse?, parse?_compact hj.wellFormed]
      exact hread
    · rw [EnvironmentTable.parse?, parse?_pretty hj.wellFormed]
      exact hread
  · rw [Response.parse?, parse?_compact response.wellFormed_toJson]
    exact response.ofJson?_toJson
  · rw [Response.parse?, parse?_pretty response.wellFormed_toJson]
    exact response.ofJson?_toJson

/-- An environment under a key that is not its name and is reserved, entries written from the last
key to the first, and two headers with one name. -/
theorem documents_read_back_reversed :
    let dev : Environment := ⟨"dev", (Dict.empty.insert "a" "\"\\\n").insert "é" ""⟩
    let table : EnvironmentTable :=
      ⟨Dict.empty.insert "$shared" dev, (Dict.empty.insert "k" "\x01").insert "l" "😀", some ""⟩
    let entries := Json.object [member "é" (ofText ""), member "a" (ofText "\"\\\n")]
    let environments := Json.object
      [member "$shared" (record [("name", ofText "dev"), ("variables", entries)])]
    let shared := Json.object [member "l" (ofText "😀"), member "k" (ofText "\x01")]
    let j := record [("environments", environments), ("shared", shared),
      ("default_environment", ofText "")]
    let response : Response := ⟨404, [("A", "1"), ("b", ""), ("A", "2")], "{}", by decide⟩
    table.Document j ∧ EnvironmentTable.parse? (String.ofList j.compact) = some table ∧
      Response.parse? (String.ofList response.toJson.compact) = some response := by
  intro dev table entries environments shared j response
  have hentries : dev.entries.Document (fun text v => v = ofText text) entries :=
    ⟨[("é", "", ofText ""), ("a", "\"\\\n", ofText "\"\\\n")], .swap _ _ _, by simp, rfl⟩
  have hdev : dev.Document (record [("name", ofText "dev"), ("variables", entries)]) :=
    ⟨entries, hentries, rfl⟩
  have henvironments : table.environments.Document Environment.Document environments :=
    ⟨[("$shared", dev, record [("name", ofText "dev"), ("variables", entries)])], .refl _,
      by simpa using hdev, rfl⟩
  have hshared : table.shared.Document (fun text v => v = ofText text) shared :=
    ⟨[("l", "😀", ofText "😀"), ("k", "\x01", ofText "\x01")], .swap _ _ _, by simp, rfl⟩
  have hj : table.Document j := ⟨environments, shared, henvironments, hshared, rfl⟩
  obtain ⟨⟨-, htable⟩, hresponse, -⟩ := documents_read_back table response
  exact ⟨hj, (htable j hj).1, hresponse⟩

end Stencil
