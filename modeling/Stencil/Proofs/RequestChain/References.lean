import Mathlib.Data.List.Forall2
import Mathlib.Data.List.Induction
import Stencil.RequestChain

/-!
# References and the run

Responses are captured under the names of their requests and forgotten together, so a name has the
response that was captured last since they were last forgotten (`get?_run_iff`). A reference is cut
at its first three points (`parts?_eq_some_iff`), which decides whether it has the shape of one at
all; what a reference of that shape gives depends on the response of its request alone
(`references_follow_run`).
-/

namespace Stencil

open Text

/-! ## Names of headers -/

namespace Response

/-- The same character, or the two cases of one ASCII letter. -/
def SameLetter (c d : Char) : Prop :=
  c = d ∨ c.isAlpha ∧ d.isAlpha ∧ (c.toNat = d.toNat + 32 ∨ d.toNat = c.toNat + 32)

/-- The same name up to the case of ASCII letters. -/
def EqualUpToCase (a b : String) : Prop := List.Forall₂ SameLetter a.toList b.toList

/-- The first header with a name, up to case, has a value. -/
def First (headers : List (String × String)) (name value : String) : Prop :=
  ∃ before key after, headers = before ++ (key, value) :: after ∧ EqualUpToCase key name ∧
    ∀ h ∈ before, ¬ EqualUpToCase h.1 name

/-- A response with more headers behind its own. -/
def addHeaders (r : Response) (more : List (String × String)) : Response :=
  more.foldl (fun r h => r.addHeader h.1 h.2) r

theorem isAlpha_iff (c : Char) :
    c.isAlpha ↔ 65 ≤ c.toNat ∧ c.toNat ≤ 90 ∨ 97 ≤ c.toNat ∧ c.toNat ≤ 122 := by
  have hupper : c.isUpper = true ↔ 65 ≤ c.toNat ∧ c.toNat ≤ 90 := decide_eq_true_iff
  have hlower : c.isLower = true ↔ 97 ≤ c.toNat ∧ c.toNat ≤ 122 := by
    show (decide _ && decide _) = true ↔ _
    simp only [Bool.and_eq_true, decide_eq_true_iff]
    rfl
  show (c.isUpper || c.isLower) = true ↔ _
  rw [Bool.or_eq_true, hupper, hlower]

theorem toNat_lowerAscii (c : Char) :
    (lowerAscii c).toNat = if 65 ≤ c.toNat ∧ c.toNat ≤ 90 then c.toNat + 32 else c.toNat := by
  show (if 65 ≤ c.toNat ∧ c.toNat ≤ 90 then Char.ofNat (c.toNat + 32) else c).toNat = _
  split
  next h =>
    have hvalid : (c.toNat + 32).isValidChar := by
      left
      omega
    rw [Char.ofNat, dif_pos hvalid]
    rfl
  next => rfl

theorem lowerAscii_eq_iff (c d : Char) : lowerAscii c = lowerAscii d ↔ SameLetter c d := by
  rw [← Char.toNat_inj, toNat_lowerAscii, toNat_lowerAscii, SameLetter, isAlpha_iff, isAlpha_iff,
    ← Char.toNat_inj]
  split <;> split <;> omega

theorem sameName_iff (a b : String) : sameName a b = true ↔ EqualUpToCase a b := by
  simp only [sameName, beq_iff_eq, EqualUpToCase]
  rw [← List.forall₂_eq_eq_eq, List.forall₂_map_left_iff, List.forall₂_map_right_iff]
  simp only [lowerAscii_eq_iff]

theorem header?_eq_some_iff (r : Response) (name value : String) :
    r.header? name = some value ↔ First r.headers name value := by
  simp only [header?, Option.map_eq_some_iff, List.find?_eq_some_iff_append, First, sameName_iff,
    Bool.not_eq_true', ← Bool.not_eq_true]
  constructor
  · rintro ⟨⟨key, v⟩, ⟨hkey, before, after, heq, hbefore⟩, rfl⟩
    exact ⟨before, key, after, heq, hkey, hbefore⟩
  · rintro ⟨before, key, after, heq, hkey, hbefore⟩
    exact ⟨(key, value), ⟨hkey, before, after, heq, hbefore⟩, rfl⟩

theorem header?_eq_none_iff (r : Response) (name : String) :
    r.header? name = none ↔ ∀ h ∈ r.headers, ¬ EqualUpToCase h.1 name := by
  simp only [header?, Option.map_eq_none_iff, List.find?_eq_none, sameName_iff]

theorem headers_addHeaders (r : Response) (more : List (String × String)) :
    (r.addHeaders more).headers = r.headers ++ more := by
  induction more generalizing r with
  | nil => simp [addHeaders]
  | cons h more ih =>
      show ((r.addHeader h.1 h.2).addHeaders more).headers = _
      rw [ih]
      simp [addHeader]

/-- The first header stays the first one when more are put behind it. -/
theorem header?_addHeaders {r : Response} {name value : String} (h : r.header? name = some value)
    (more : List (String × String)) : (r.addHeaders more).header? name = some value := by
  rw [header?_eq_some_iff] at h ⊢
  obtain ⟨before, key, after, heq, hkey, hbefore⟩ := h
  refine ⟨before, key, after ++ more, ?_, hkey, hbefore⟩
  rw [headers_addHeaders, heq]
  simp

end Response

namespace RequestChain

/-! ## Captured responses -/

/-- A change to the captured responses. -/
inductive Write where
  | set (name : String) (response : Response)
  | clear
  deriving DecidableEq

/-- The captured responses after a change. -/
def Write.apply (chain : RequestChain) : Write → RequestChain
  | .set name response => chain.set name response
  | .clear => chain.clear

/-- The captured responses after some changes. -/
def run (writes : List Write) : RequestChain := writes.foldl Write.apply .empty

/-- A response is the one that was captured last under a name since all were last forgotten. -/
def LastSet (writes : List Write) (name : String) (response : Response) : Prop :=
  ∃ before after, writes = before ++ .set name response :: after ∧ .clear ∉ after ∧
    ∀ other, .set name other ∉ after

/-- A change captures a response under a name, or leaves the one there alone. -/
theorem get?_apply_iff (chain : RequestChain) (w : Write) (name : String) (response : Response) :
    (w.apply chain).get? name = some response ↔
      w = .set name response ∨
        w ≠ .clear ∧ (∀ other, w ≠ .set name other) ∧ chain.get? name = some response := by
  cases w with
  | clear =>
      show (Dict.empty.get? name : Option Response) = some response ↔ _
      simp
  | set key captured =>
      show (chain.responses.insert key captured).get? name = some response ↔ _
      rw [Dict.get?_insert]
      by_cases hkey : name = key
      · simp [hkey]
      · simp [hkey, Ne.symm hkey, get?]

/-- The last change captures a response under a name, or an earlier one counts. -/
theorem lastSet_append_iff (writes : List Write) (w : Write) (name : String)
    (response : Response) : LastSet (writes ++ [w]) name response ↔
      w = .set name response ∨
        w ≠ .clear ∧ (∀ other, w ≠ .set name other) ∧ LastSet writes name response := by
  constructor
  · rintro ⟨before, after, heq, hclear, hset⟩
    -- either nothing follows what counts, and it is the last change, or the last change follows it
    rcases List.eq_nil_or_concat after with rfl | ⟨after, last, rfl⟩
    · left
      exact (List.append_singleton_inj.1 heq).2
    · right
      rw [List.concat_eq_append] at heq hclear hset
      rw [← List.cons_append, ← List.append_assoc] at heq
      obtain ⟨rfl, rfl⟩ := List.append_singleton_inj.1 heq
      simp only [List.mem_append, List.mem_singleton, not_or] at hclear hset
      exact ⟨Ne.symm hclear.2, fun other => Ne.symm (hset other).2, before, after, rfl, hclear.1,
        fun other => (hset other).1⟩
  · rintro (rfl | ⟨hclear, hset, before, after, rfl, hclear', hset'⟩)
    · exact ⟨writes, [], rfl, by simp, by simp⟩
    · refine ⟨before, after ++ [w], by simp, ?_, fun other => ?_⟩
      · simp [hclear', Ne.symm hclear]
      · simp [hset' other, Ne.symm (hset other)]

/-- A name has the response that was captured last under it. -/
theorem get?_run_iff (writes : List Write) (name : String) (response : Response) :
    (run writes).get? name = some response ↔ LastSet writes name response := by
  induction writes using List.reverseRecOn with
  | nil =>
      show (Dict.empty.get? name : Option Response) = some response ↔ _
      simp [LastSet]
  | append_singleton writes w ih =>
      have hrun : run (writes ++ [w]) = w.apply (run writes) := by simp [run]
      rw [hrun, get?_apply_iff, lastSet_append_iff, ih]

theorem get?_run_eq_none {writes : List Write} {name : String}
    (h : ∀ response, ¬ LastSet writes name response) : (run writes).get? name = none := by
  rw [Option.eq_none_iff_forall_ne_some]
  intro response hget
  exact h response ((get?_run_iff writes name response).1 hget)

/-! ## The parts of a reference -/

/-- A reference to a part of the response to a request. -/
def reference (request part path : String) : String :=
  request ++ ".response." ++ part ++ "." ++ path

/-- A text in front of its first three points, and behind them. -/
theorem parts?_eq_some_iff (e request source part path : String) :
    parts? e = some (request, source, part, path) ↔
      e.toList = request.toList ++
        '.' :: (source.toList ++ '.' :: (part.toList ++ '.' :: path.toList)) ∧
        '.' ∉ request.toList ∧ '.' ∉ source.toList ∧ '.' ∉ part.toList := by
  constructor
  · intro h
    simp only [parts?, Option.bind_eq_bind, Option.bind_eq_some_iff, Option.pure_def,
      Option.some.injEq, Prod.mk.injEq, Prod.exists] at h
    obtain ⟨_, _, hrequest, _, _, hsource, _, _, hpart, rfl, rfl, rfl, rfl⟩ := h
    obtain ⟨he, hfree⟩ := eq_append_of_cutChar? hrequest
    obtain ⟨rfl, hfree'⟩ := eq_append_of_cutChar? hsource
    obtain ⟨rfl, hfree''⟩ := eq_append_of_cutChar? hpart
    simp only [String.toList_ofList]
    exact ⟨he, hfree, hfree', hfree''⟩
  · rintro ⟨he, hrequest, hsource, hpart⟩
    rw [parts?, he, cutChar?_append hrequest]
    simp [cutChar?_append hsource, cutChar?_append hpart]

/-- A text with less than three points has no four parts. -/
theorem parts?_eq_none {e : String} (h : e.toList.count '.' < 3) : parts? e = none := by
  rw [Option.eq_none_iff_forall_ne_some]
  rintro ⟨request, source, part, path⟩ hparts
  obtain ⟨he, -⟩ := (parts?_eq_some_iff ..).1 hparts
  rw [he] at h
  simp only [List.count_append, List.count_cons_self] at h
  omega

/-- The part behind the first point. -/
theorem source_of_parts? {e request source part path : String}
    (h : parts? e = some (request, source, part, path)) :
    (splitAtChar '.' e.toList)[1]? = some source.toList := by
  obtain ⟨he, hrequest, hsource, -⟩ := (parts?_eq_some_iff ..).1 h
  rw [he, splitAtChar_append hrequest, splitAtChar_append hsource]
  rfl

/-- A text with a point behind the word `response` has four parts. -/
theorem exists_parts?_reference {request : String} (h : '.' ∉ request.toList)
    (part path : String) : ∃ p q, parts? (reference request part path) =
      some (request, "response", p, q) := by
  have hmem : '.' ∈ part.toList ++ '.' :: path.toList := by simp
  obtain ⟨p, q, heq, hp⟩ := List.eq_append_cons_of_mem hmem
  refine ⟨String.ofList p, String.ofList q, (parts?_eq_some_iff ..).2 ⟨?_, h, by decide, ?_⟩⟩
  · simp [reference, heq]
  · simpa using hp

theorem parts?_reference {request part : String} (hrequest : '.' ∉ request.toList)
    (hpart : '.' ∉ part.toList) (path : String) :
    parts? (reference request part path) = some (request, "response", part, path) :=
  (parts?_eq_some_iff ..).2 ⟨by simp [reference], hrequest, by decide, hpart⟩

/-! ## Values of references -/

/-- A path into a document. -/
def IsJsonPath (path : String) : Prop := ∃ rest, path = "$." ++ rest ∨ path = "$[" ++ rest

theorem startsWith_iff (front path : String) :
    startsWith front.toList path.toList = true ↔ ∃ rest, path = front ++ rest := by
  rw [startsWith, Option.isSome_iff_exists]
  constructor
  · rintro ⟨rest, h⟩
    refine ⟨String.ofList rest, ?_⟩
    rw [← String.toList_inj, eq_append_of_stripPrefix? h]
    simp
  · rintro ⟨rest, rfl⟩
    rw [String.toList_append]
    exact ⟨_, stripPrefix?_append ..⟩

theorem bodyValue_of_isJsonPath {path : String} (h : IsJsonPath path) (response : Response) :
    bodyValue response path = (JsonPath.extract response.body path).mapError .jsonPath := by
  have hstar : path ≠ "*" := by
    rintro rfl
    obtain ⟨rest, h | h⟩ := h <;> simpa using congrArg String.toList h
  obtain ⟨rest, h⟩ := h
  have hstarts : (startsWith "$.".toList path.toList || startsWith "$[".toList path.toList) := by
    rw [Bool.or_eq_true, startsWith_iff, startsWith_iff]
    exact h.imp (fun h => ⟨rest, h⟩) fun h => ⟨rest, h⟩
  rw [bodyValue, if_neg hstar]
  exact if_pos hstarts

theorem bodyValue_of_other {path : String} (hstar : path ≠ "*") (h : ¬ IsJsonPath path)
    (response : Response) :
    bodyValue response path = .error (.invalidSyntax (.bodyPath path)) := by
  have hstarts : ¬ (startsWith "$.".toList path.toList || startsWith "$[".toList path.toList) := by
    rw [Bool.or_eq_true, startsWith_iff, startsWith_iff]
    rintro (⟨rest, heq⟩ | ⟨rest, heq⟩)
    · exact h ⟨rest, .inl heq⟩
    · exact h ⟨rest, .inr heq⟩
  rw [bodyValue, if_neg hstar]
  exact if_neg hstarts

/-- What has not the shape of a reference is refused, whatever was captured. -/
theorem exists_fault {e : String} (h : e.toList.count '.' < 3 ∨
      (splitAtChar '.' e.toList)[1]? ≠ some "response".toList) :
    ∃ fault, ∀ chain : RequestChain, chain.resolve e = .error (.invalidSyntax fault) := by
  cases hparts : parts? e with
  | none =>
      refine ⟨.shortReference e, fun chain => ?_⟩
      rw [resolve, hparts]
  | some parts =>
      obtain ⟨request, source, part, path⟩ := parts
      have hsource : source ≠ "response" := by
        rintro rfl
        rcases h with h | h
        · rw [parts?_eq_none h] at hparts
          cases hparts
        · exact h (source_of_parts? hparts)
      -- the word `request` has a fault of its own; any other word is named by its fault
      by_cases hrequest : source = "request"
      · refine ⟨.requestSide e, fun chain => ?_⟩
        rw [resolve, hparts]
        exact if_pos hrequest
      · refine ⟨.referenceSource source, fun chain => ?_⟩
        rw [resolve, hparts]
        show (if source = "request" then _ else if source ≠ "response" then _ else _) = _
        rw [if_neg hrequest, if_pos hsource]

theorem resolve_of_none {chain : RequestChain} {e request part path : String}
    (hparts : parts? e = some (request, "response", part, path))
    (h : chain.get? request = none) : chain.resolve e = .error (.noResponse request) := by
  rw [resolve, hparts]
  simp [h]

theorem resolve_reference {chain : RequestChain} {request part : String} {response : Response}
    (hrequest : '.' ∉ request.toList) (hpart : '.' ∉ part.toList) (path : String)
    (h : chain.get? request = some response) : chain.resolve (reference request part path) =
      if part = "body" then bodyValue response path
      else if part = "headers" then headerValue response path
      else .error (.invalidSyntax (.referenceSection part)) := by
  rw [resolve, parts?_reference hrequest hpart path]
  simp [h]

theorem headerValue_eq_ok_iff (response : Response) (name value : String) :
    headerValue response name = .ok value ↔ Response.First response.headers name value := by
  rw [← Response.header?_eq_some_iff, headerValue]
  cases response.header? name <;> simp

theorem headerValue_eq_error_iff (response : Response) (name : String) :
    headerValue response name = .error (.noHeader name) ↔
      ∀ h ∈ response.headers, ¬ Response.EqualUpToCase h.1 name := by
  rw [← Response.header?_eq_none_iff, headerValue]
  cases response.header? name <;> simp

/-- The references to a request give what its response holds. -/
structure Answers (chain : RequestChain) (name : String) (response : Response) : Prop where
  /-- The whole body. -/
  body : chain.resolve (reference name "body" "*") = .ok response.body
  /-- A path of the body, which may hold points. -/
  path : ∀ path, IsJsonPath path → chain.resolve (reference name "body" path) =
    (JsonPath.extract response.body path).mapError .jsonPath
  otherPath : ∀ path, path ≠ "*" → ¬ IsJsonPath path →
    chain.resolve (reference name "body" path) = .error (.invalidSyntax (.bodyPath path))
  /-- The first header with a name, which may hold points. -/
  header : ∀ key value, chain.resolve (reference name "headers" key) = .ok value ↔
    Response.First response.headers key value
  noHeader : ∀ key, chain.resolve (reference name "headers" key) = .error (.noHeader key) ↔
    ∀ h ∈ response.headers, ¬ Response.EqualUpToCase h.1 key
  otherPart : ∀ part path, '.' ∉ part.toList → part ≠ "body" → part ≠ "headers" →
    chain.resolve (reference name part path) = .error (.invalidSyntax (.referenceSection part))

theorem answers_of_get? {chain : RequestChain} {name : String} {response : Response}
    (hname : '.' ∉ name.toList) (h : chain.get? name = some response) :
    Answers chain name response := by
  have hbody : ∀ path, chain.resolve (reference name "body" path) = bodyValue response path :=
    fun path => resolve_reference hname (by decide) path h
  have hheaders : ∀ key, chain.resolve (reference name "headers" key) =
      headerValue response key := fun key => resolve_reference hname (by decide) key h
  constructor
  case body =>
      rw [hbody]
      rfl
  case path =>
      intro path hpath
      rw [hbody, bodyValue_of_isJsonPath hpath]
  case otherPath =>
      intro path hstar hpath
      rw [hbody, bodyValue_of_other hstar hpath]
  case header =>
      intro key value
      rw [hheaders, headerValue_eq_ok_iff]
  case noHeader =>
      intro key
      rw [hheaders, headerValue_eq_error_iff]
  case otherPart =>
      intro part path hpart hnbody hnheaders
      rw [resolve_reference hname hpart path h, if_neg hnbody, if_neg hnheaders]

/-- What a name of a request is followed by is looked up in its response alone. -/
theorem resolve_congr {chain other : RequestChain} {name : String} (hname : '.' ∉ name.toList)
    (h : chain.get? name = other.get? name) (rest : String) :
    chain.resolve (name ++ "." ++ rest) = other.resolve (name ++ "." ++ rest) := by
  cases hparts : parts? (name ++ "." ++ rest) with
  | none => rw [resolve, resolve, hparts]
  | some parts =>
      obtain ⟨request, source, part, path⟩ := parts
      obtain ⟨heq, hrequest, -⟩ := (parts?_eq_some_iff ..).1 hparts
      have hsame : request = name := by
        have hcut := cutChar?_append hname rest.toList
        have htext : name.toList ++ '.' :: rest.toList = (name ++ "." ++ rest).toList := by simp
        rw [htext, heq, cutChar?_append hrequest] at hcut
        exact String.toList_inj.1 (Prod.mk.inj (Option.some.inj hcut)).1
      rw [resolve, resolve, hparts, hsame]
      simp only [h]

/-- References follow the run. A text without three points, or with another word than `response`
behind the first one, is no reference, whatever was captured. Otherwise the name in front decides:
without a response under it since the last clearing there is none to refer to; with one, parts and
paths are those of the response that was captured last, headers put behind its own hide none of
them, and no response under another name matters. -/
theorem references_follow_run (writes : List Write) :
    (∀ e : String, e.toList.count '.' < 3 ∨
        (splitAtChar '.' e.toList)[1]? ≠ some "response".toList →
      ∃ fault, ∀ chain : RequestChain, chain.resolve e = .error (.invalidSyntax fault)) ∧
    ∀ name : String, '.' ∉ name.toList →
      ((∀ response, ¬ LastSet writes name response) → ∀ part path,
        (run writes).resolve (reference name part path) = .error (.noResponse name)) ∧
      (∀ response, LastSet writes name response →
        Answers (run writes) name response ∧
        ∀ more key value, (run writes).resolve (reference name "headers" key) = .ok value →
          (run (writes ++ [.set name (response.addHeaders more)])).resolve
            (reference name "headers" key) = .ok value) ∧
      ∀ others, (∀ response, LastSet others name response ↔ LastSet writes name response) →
        ∀ rest, (run others).resolve (name ++ "." ++ rest) =
          (run writes).resolve (name ++ "." ++ rest) := by
  refine ⟨fun e h => exists_fault h, fun name hname => ⟨?_, ?_, ?_⟩⟩
  · intro hnone part path
    obtain ⟨p, q, hparts⟩ := exists_parts?_reference hname part path
    exact resolve_of_none hparts (get?_run_eq_none hnone)
  · intro response hlast
    have hanswers := answers_of_get? hname ((get?_run_iff ..).2 hlast)
    refine ⟨hanswers, fun more key value hvalue => ?_⟩
    -- the response that was captured last is now the one with more headers
    have hmore : (run (writes ++ [.set name (response.addHeaders more)])).get? name =
        some (response.addHeaders more) :=
      (get?_run_iff ..).2 ((lastSet_append_iff ..).2 (.inl rfl))
    rw [(answers_of_get? hname hmore).header, ← Response.header?_eq_some_iff]
    rw [hanswers.header, ← Response.header?_eq_some_iff] at hvalue
    exact Response.header?_addHeaders hvalue more
  · intro others hsame rest
    refine resolve_congr hname ?_ rest
    refine Option.ext fun response => ?_
    rw [get?_run_iff, get?_run_iff, hsame]

/-- After a clearing and a second login, references are to the second one; of its two headers with
one name the first counts. -/
theorem references_follow_run_login :
    let login : Response :=
      { status := 200, headers := [("X-Id", "7"), ("x-id", "8")],
        body := "\x7b\"token\":\"abc\"\x7d" }
    let writes : List Write :=
      [.set "login" { status := 500, headers := [], body := "" }, .clear, .set "login" login,
        .set "users" { status := 404, headers := [("x-id", "9")], body := "none" }]
    LastSet writes "login" login ∧
      (run writes).resolve "login.response.body.$.token" = .ok "abc" ∧
      (run writes).resolve "login.response.headers.X-ID" = .ok "7" ∧
      (run writes).resolve "signup.response.cookies.id" = .error (.noResponse "signup") ∧
      ∃ fault, (run writes).resolve "login.response.body" = .error (.invalidSyntax fault) := by
  intro login writes
  obtain ⟨hshape, hname⟩ := references_follow_run writes
  have hlast : LastSet writes "login" login :=
    ⟨writes.take 2, writes.drop 3, rfl, by decide, fun other => by simp [writes]⟩
  obtain ⟨hanswers, -⟩ := (hname "login" (by decide)).2.1 login hlast
  obtain ⟨hnone, -⟩ := hname "signup" (by decide)
  obtain ⟨fault, hfault⟩ := hshape "login.response.body" (by decide)
  refine ⟨hlast, ?_, ?_, ?_, fault, hfault _⟩
  · exact (hanswers.path "$.token" ⟨"token", .inl rfl⟩).trans (by decide)
  · exact (hanswers.header "X-ID" "7").2 ((Response.header?_eq_some_iff ..).1 (by decide))
  · refine hnone (fun response hset => ?_) "cookies" "id"
    obtain ⟨before, after, heq, -⟩ := hset
    have hmem : .set "signup" response ∈ writes := by simp [heq]
    simp [writes] at hmem

end RequestChain

end Stencil
