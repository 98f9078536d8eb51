import Stencil.Endpoint

/-!
# Endpoints of texts that are cut

A text that is no URL, such as one with a placeholder for its host, is cut at the marks of its
parts. `Parts` are the parts that it is written from, and its endpoint should be the authority, the
path and the query: `Parts.resource`. The cut never keeps more than that, and it keeps all of it
exactly if no mark stands where it is not meant (`cut_endpoint_eq_iff`): without a scheme, the mark
of one may not occur in the resource, and without a path no `@` may stand in the query in front of
its first slash. How domain names are read makes no difference, except to whether a text is cut.
-/

namespace Stencil.Endpoint

open Text

/-- The mark behind a scheme. -/
def schemeMark : List Char := [':', '/', '/']

/-- The parts that the text of a URL is written from. None holds a mark that would end it. -/
structure Parts where
  scheme? : Option (List Char)
  user? : Option (List Char)
  authority : List Char
  path : List Char
  query? : Option (List Char)
  fragment? : Option (List Char)
  scheme_marks : ∀ scheme ∈ scheme?, ∀ c ∈ scheme, c ∉ [':', '/', '?', '#', '@']
  user_marks : ∀ user ∈ user?, ∀ c ∈ user, c ∉ ['/', '?', '#']
  authority_marks : ∀ c ∈ authority, c ∉ ['/', '?', '#', '@']
  path_head : ∀ c ∈ path.head?, c = '/'
  path_marks : ∀ c ∈ path, c ∉ ['?', '#']
  query_marks : ∀ query ∈ query?, '#' ∉ query

namespace Parts

/-- The scheme with its mark. -/
def schemeText (p : Parts) : List Char := p.scheme?.elim [] (· ++ schemeMark)

/-- The user with its mark. -/
def userText (p : Parts) : List Char := p.user?.elim [] (· ++ ['@'])

/-- The query with its mark. -/
def queryText (p : Parts) : List Char := p.query?.elim [] ('?' :: ·)

/-- The fragment with its mark. -/
def fragmentText (p : Parts) : List Char := p.fragment?.elim [] ('#' :: ·)

/-- What the endpoint of a URL is meant to keep. -/
def resource (p : Parts) : List Char := p.authority ++ p.path ++ p.queryText

/-- The text of a URL. -/
def write (p : Parts) : List Char := p.schemeText ++ p.userText ++ p.resource ++ p.fragmentText

/-- The text of a URL is cut: it has no blanks around it and is not read as a URL with a host. -/
structure IsCut (p : Parts) (toAscii? : Url.DomainReading) : Prop where
  trimmed : trim p.write = p.write
  rejected : Url.parse? toAscii? p.write = none

/-- No mark stands in the resource where the cut takes it for that of a scheme or a user. -/
structure CutsRight (p : Parts) : Prop where
  scheme : p.scheme? = none → cut? schemeMark p.resource = none
  user : p.path = [] → '@' ∉ p.queryText.takeWhile (· ≠ '/')

end Parts

/-! ## Users -/

/-- In front of a host, the last user counts. -/
theorem dropUser_authority_append (front host : List Char) :
    Url.dropUser (front ++ '@' :: host) = Url.dropUser host := by
  by_cases h : '@' ∈ host
  · obtain ⟨before, after, hhost, hafter, hcut⟩ := exists_cutLastChar? h
    have hfront : front ++ '@' :: host = (front ++ '@' :: before) ++ '@' :: after := by
      rw [hhost]
      simp
    rw [Url.dropUser, Url.dropUser, hcut, hfront, cutLastChar?_append hafter]
    rfl
  · rw [Url.dropUser, Url.dropUser, cutLastChar?_append h, cutLastChar?_eq_none h]
    rfl

/-- A user in front of a text makes no difference to what is left of it. -/
theorem dropUser_append {user : List Char} (h : '/' ∉ user) (cs : List Char) :
    dropUser (user ++ '@' :: cs) = dropUser cs := by
  have hslash : '/' ∉ user ++ ['@'] := by simp [h]
  have htake := takeWhile_ne_append hslash cs
  have hdrop := dropWhile_ne_append hslash cs
  rw [List.append_assoc] at htake hdrop
  rw [dropUser, dropUser]
  show Url.dropUser ((user ++ (['@'] ++ cs)).takeWhile _) ++ (user ++ (['@'] ++ cs)).dropWhile _ = _
  rw [htake, hdrop, List.append_assoc]
  exact congrArg (· ++ _) (dropUser_authority_append user _)

/-- What is left of an authority is its end, and all of it only if it holds no `@`. -/
theorem dropUser_authority_suffix (authority : List Char) :
    Url.dropUser authority <:+ authority ∧
      (Url.dropUser authority = authority ↔ '@' ∉ authority) := by
  by_cases h : '@' ∈ authority
  · obtain ⟨before, after, hsplit, hafter, hcut⟩ := exists_cutLastChar? h
    have heq : Url.dropUser authority = after := by
      rw [Url.dropUser, hcut]
      rfl
    rw [heq]
    refine ⟨⟨before ++ ['@'], by rw [hsplit]; simp⟩, ?_, fun hnot => absurd h hnot⟩
    intro hall
    exact absurd h (hall ▸ hafter)
  · have heq : Url.dropUser authority = authority := by
      rw [Url.dropUser, cutLastChar?_eq_none h]
      rfl
    rw [heq]
    exact ⟨List.suffix_refl authority, fun _ => h, fun _ => rfl⟩

/-- What is left of a text without its user is its end, and all of it only if no `@` stands in
front of its first slash. -/
theorem dropUser_suffix (cs : List Char) :
    dropUser cs <:+ cs ∧ (dropUser cs = cs ↔ '@' ∉ cs.takeWhile (· ≠ '/')) := by
  obtain ⟨⟨front, hfront⟩, hall⟩ := dropUser_authority_suffix (cs.takeWhile (· ≠ '/'))
  have hsplit := List.takeWhile_append_dropWhile (p := (· ≠ '/')) (l := cs)
  rw [← hall, dropUser]
  refine ⟨⟨front, ?_⟩, ?_, ?_⟩
  · rw [← List.append_assoc, hfront, hsplit]
  · intro heq
    exact List.append_cancel_right (heq.trans hsplit.symm)
  · intro heq
    rw [heq, hsplit]

/-! ## Schemes -/

/-- Behind a scheme stands what its mark is followed by. -/
theorem dropScheme_append {scheme : List Char} (h : ':' ∉ scheme) (cs : List Char) :
    dropScheme (scheme ++ schemeMark ++ cs) = cs := by
  have happend : scheme ++ schemeMark ++ cs = scheme ++ ':' :: (['/', '/'] ++ cs) := by
    simp [schemeMark]
  rw [dropScheme, happend, cut?_append h]
  rfl

/-- The mark of a scheme does not begin in a text without slashes that ends in no colon. -/
theorem cut?_schemeMark_append {front : List Char} (hslash : '/' ∉ front)
    (hlast : front.getLast? ≠ some ':') (cs : List Char) :
    (cut? schemeMark (front ++ cs)).map (·.2) = (cut? schemeMark cs).map (·.2) := by
  induction front with
  | nil => rfl
  | cons c front ih =>
      obtain ⟨-, hfront⟩ := not_or.1 (mt List.mem_cons.2 hslash)
      have hstrip : stripPrefix? schemeMark (c :: (front ++ cs)) = none := by
        cases front with
        | nil =>
            have hcolon : ':' ≠ c := fun heq => hlast (by rw [← heq]; rfl)
            simp [schemeMark, stripPrefix?, hcolon]
        | cons d front =>
            have hd : '/' ≠ d := fun heq => hfront (heq ▸ List.mem_cons_self)
            simp [schemeMark, stripPrefix?, hd]
      have hlast' : front.getLast? ≠ some ':' := by
        intro heq
        apply hlast
        rw [List.getLast?_cons, heq]
        rfl
      rw [List.cons_append, cut?, hstrip, Option.map_map, ← ih hfront hlast']
      rfl

namespace Parts

variable (p : Parts)

/-! ## Cutting a text from its parts -/

theorem fragmentMark_not_mem : '#' ∉ p.schemeText ++ p.userText ++ p.resource := by
  have hscheme : '#' ∉ p.schemeText := by
    intro h
    cases hsome : p.scheme? with
    | none => simp [schemeText, hsome] at h
    | some scheme =>
        have hmem : '#' ∈ scheme := by simpa [schemeText, schemeMark, hsome] using h
        exact p.scheme_marks scheme hsome '#' hmem (by decide)
  have huser : '#' ∉ p.userText := by
    intro h
    cases hsome : p.user? with
    | none => simp [userText, hsome] at h
    | some user =>
        have hmem : '#' ∈ user := by simpa [userText, hsome] using h
        exact p.user_marks user hsome '#' hmem (by decide)
  have hquery : '#' ∉ p.queryText := by
    intro h
    cases hsome : p.query? with
    | none => simp [queryText, hsome] at h
    | some query =>
        have hmem : '#' ∈ query := by simpa [queryText, hsome] using h
        exact p.query_marks query hsome hmem
  have hauthority : '#' ∉ p.authority := fun h => p.authority_marks '#' h (by decide)
  have hpath : '#' ∉ p.path := fun h => p.path_marks '#' h (by decide)
  simp [resource, hscheme, huser, hauthority, hpath, hquery]

theorem dropFragment_write :
    Url.dropFragment p.write = p.schemeText ++ p.userText ++ p.resource := by
  have hend : p.fragmentText.takeWhile (· ≠ '#') = [] := by
    cases hfragment : p.fragment? <;> simp [fragmentText, hfragment]
  rw [Url.dropFragment, write, takeWhile_ne_append p.fragmentMark_not_mem, hend, List.append_nil]

theorem slash_not_mem_userText : '/' ∉ p.userText := by
  intro h
  cases huser : p.user? with
  | none => simp [userText, huser] at h
  | some user =>
      have hmem : '/' ∈ user := by simpa [userText, huser] using h
      exact p.user_marks user huser '/' hmem (by decide)

/-- The user in front makes no difference. -/
theorem dropUser_userText (cs : List Char) : dropUser (p.userText ++ cs) = dropUser cs := by
  have hslash := p.slash_not_mem_userText
  cases huser : p.user? with
  | none => simp [userText, huser]
  | some user =>
      have htext : p.userText = user ++ ['@'] := by simp [userText, huser]
      rw [htext] at hslash ⊢
      rw [List.append_assoc]
      exact dropUser_append (fun h => hslash (List.mem_append_left _ h)) cs

/-- A scheme is cut off whole, and so is the user behind it. -/
theorem ofText_of_scheme {scheme : List Char} (h : p.scheme? = some scheme) :
    ofText p.write = dropUser p.resource := by
  have hcolon : ':' ∉ scheme := fun hmem => p.scheme_marks scheme h ':' hmem (by decide)
  have hscheme : p.schemeText = scheme ++ schemeMark := by simp [schemeText, h]
  rw [ofText, dropFragment_write, hscheme, List.append_assoc, dropScheme_append hcolon,
    dropUser_userText]

/-- Without a scheme, everything up to the first mark of one is cut off. -/
theorem ofText_of_no_scheme (h : p.scheme? = none) :
    ofText p.write = dropUser (dropScheme p.resource) := by
  have hscheme : p.schemeText = [] := by simp [schemeText, h]
  have hlast : p.userText.getLast? ≠ some ':' := by
    cases huser : p.user? <;> simp [userText, huser]
  have hcut := cut?_schemeMark_append p.slash_not_mem_userText hlast p.resource
  rw [ofText, dropFragment_write, hscheme, List.nil_append, dropScheme, dropScheme]
  rw [schemeMark] at hcut
  rw [hcut]
  cases cut? [':', '/', '/'] p.resource with
  | none => exact p.dropUser_userText p.resource
  | some parts => rfl

/-! ## What is kept -/

/-- In front of the first slash of the resource stands an `@` only if there is no path. -/
theorem at_not_mem_takeWhile : '@' ∉ p.resource.takeWhile (· ≠ '/') ↔
    (p.path = [] → '@' ∉ p.queryText.takeWhile (· ≠ '/')) := by
  have hat : '@' ∉ p.authority := fun h => p.authority_marks '@' h (by decide)
  have hslash : '/' ∉ p.authority := fun h => p.authority_marks '/' h (by decide)
  rw [resource, List.append_assoc, takeWhile_ne_append hslash, List.mem_append, not_or]
  cases hpath : p.path with
  | nil => simp [hat]
  | cons c path =>
      obtain rfl : c = '/' := p.path_head c (by simp [hpath])
      simp [hat]

/-- The cut keeps an end of the resource. -/
theorem ofText_suffix : ofText p.write <:+ p.resource := by
  cases hscheme : p.scheme? with
  | some scheme =>
      rw [p.ofText_of_scheme hscheme]
      exact (dropUser_suffix p.resource).1
  | none =>
      rw [p.ofText_of_no_scheme hscheme, dropScheme]
      cases hcut : cut? [':', '/', '/'] p.resource with
      | none => exact (dropUser_suffix p.resource).1
      | some parts =>
          obtain ⟨before, after⟩ := parts
          have hsplit := eq_append_of_cut? hcut
          exact (dropUser_suffix after).1.trans ⟨before ++ schemeMark, hsplit.symm⟩

/-- It keeps all of the resource exactly if no mark misleads it. -/
theorem ofText_eq_resource_iff : ofText p.write = p.resource ↔ p.CutsRight := by
  have huser := p.at_not_mem_takeWhile
  rw [← (dropUser_suffix p.resource).2] at huser
  cases hscheme : p.scheme? with
  | some scheme =>
      rw [p.ofText_of_scheme hscheme, huser]
      constructor
      · intro h
        exact ⟨fun hnone => by simp [hscheme] at hnone, h⟩
      · intro h
        exact h.user
  | none =>
      rw [p.ofText_of_no_scheme hscheme, dropScheme]
      cases hcut : cut? [':', '/', '/'] p.resource with
      | none =>
          show dropUser p.resource = p.resource ↔ p.CutsRight
          rw [huser]
          constructor
          · intro h
            exact ⟨fun _ => hcut, h⟩
          · intro h
            exact h.user
      | some parts =>
          obtain ⟨before, after⟩ := parts
          have hlength := congrArg List.length (eq_append_of_cut? hcut)
          have hsuffix := (dropUser_suffix after).1.length_le
          constructor
          · intro h
            -- What is kept is no longer than what stands behind the mark.
            have heq : (dropUser after).length = p.resource.length := congrArg List.length h
            simp only [List.length_append, List.length_cons] at hlength
            omega
          · intro h
            have hnone := h.scheme hscheme
            rw [schemeMark, hcut] at hnone
            cases hnone

/-! ## Different resources -/

theorem resource_authority : p.resource.takeWhile (fun c => c ≠ '/' && c ≠ '?') = p.authority ∧
    p.resource.dropWhile (fun c => c ≠ '/' && c ≠ '?') = p.path ++ p.queryText := by
  have hkeep : ∀ c ∈ p.authority, (decide (c ≠ '/') && decide (c ≠ '?')) = true := by
    intro c hc
    have hmarks := p.authority_marks c hc
    simp only [List.mem_cons, not_or] at hmarks
    simp [hmarks.1, hmarks.2.1]
  have hrest : ∀ c ∈ (p.path ++ p.queryText).head?, c = '/' ∨ c = '?' := by
    intro c hc
    cases hpath : p.path with
    | cons d path =>
        rw [hpath] at hc
        exact .inl (p.path_head c (by rw [hpath]; exact hc))
    | nil =>
        cases hquery : p.query? with
        | none => simp [hpath, queryText, hquery] at hc
        | some query =>
            have hmark : '?' = c := by simpa [hpath, queryText, hquery] using hc
            exact .inr hmark.symm
  rw [resource, List.append_assoc, List.takeWhile_append_of_pos hkeep,
    List.dropWhile_append_of_pos hkeep]
  cases hcs : p.path ++ p.queryText with
  | nil => simp
  | cons c cs =>
      rcases hrest c (by rw [hcs]; rfl) with rfl | rfl <;> simp

theorem path_queryText : (p.path ++ p.queryText).takeWhile (· ≠ '?') = p.path ∧
    (p.path ++ p.queryText).dropWhile (· ≠ '?') = p.queryText := by
  have hpath : '?' ∉ p.path := fun h => p.path_marks '?' h (by decide)
  rw [takeWhile_ne_append hpath, dropWhile_ne_append hpath]
  cases hquery : p.query? <;> simp [queryText, hquery]

/-- The parts of a resource can be told apart. -/
theorem eq_of_resource_eq {p q : Parts} (h : p.resource = q.resource) :
    p.authority = q.authority ∧ p.path = q.path ∧ p.query? = q.query? := by
  have hrest : p.path ++ p.queryText = q.path ++ q.queryText := by
    rw [← p.resource_authority.2, h, q.resource_authority.2]
  have hquery : p.queryText = q.queryText := by
    rw [← p.path_queryText.2, hrest, q.path_queryText.2]
  refine ⟨?_, ?_, ?_⟩
  · rw [← p.resource_authority.1, h, q.resource_authority.1]
  · rw [← p.path_queryText.1, hrest, q.path_queryText.1]
  · cases hp : p.query? with
    | none =>
        cases hq : q.query? with
        | none => rfl
        | some query => simp [queryText, hp, hq] at hquery
    | some query =>
        cases hq : q.query? with
        | none => simp [queryText, hp, hq] at hquery
        | some query' =>
            have heq : query = query' := by simpa [queryText, hp, hq] using hquery
            rw [heq]

end Parts

/-! ## Endpoints -/

variable {toAscii? : Url.DomainReading}

theorem of_eq_ofText {p : Parts} (h : p.IsCut toAscii?) :
    of (String.ofList p.write) toAscii? = String.ofList (ofText p.write) := by
  rw [of, String.toList_ofList, h.trimmed, h.rejected]
  rfl

/-- The endpoint of a text that is cut is an end of its resource. It is the resource exactly if no
mark in it misleads the cut, and texts for which this holds have different endpoints if they differ
in their authority, path or query. -/
theorem cut_endpoint_eq_iff (p : Parts) (h : p.IsCut toAscii?) :
    (∃ kept, kept <:+ p.resource ∧ of (String.ofList p.write) toAscii? = String.ofList kept) ∧
    (of (String.ofList p.write) toAscii? = String.ofList p.resource ↔ p.CutsRight) ∧
    ∀ q : Parts, q.IsCut toAscii? → p.CutsRight → q.CutsRight →
      of (String.ofList p.write) toAscii? = of (String.ofList q.write) toAscii? →
      p.authority = q.authority ∧ p.path = q.path ∧ p.query? = q.query? := by
  rw [of_eq_ofText h]
  refine ⟨⟨_, p.ofText_suffix, rfl⟩, ?_, ?_⟩
  · rw [String.ofList_inj, p.ofText_eq_resource_iff]
  · intro q hq hp' hq' heq
    rw [of_eq_ofText hq, String.ofList_inj, p.ofText_eq_resource_iff.2 hp',
      q.ofText_eq_resource_iff.2 hq'] at heq
    exact Parts.eq_of_resource_eq heq

/-- Behind a scheme, the mark of one in the query is kept. -/
theorem cut_endpoint_eq_iff_callback :
    let p : Parts :=
      { scheme? := some "https".toList, user? := some "me@work".toList,
        authority := "{{host}}:{{port}}".toList, path := "/login".toList,
        query? := some "next=http://a.b/c".toList, fragment? := some "top".toList,
        scheme_marks := by simp, user_marks := by simp, authority_marks := by simp,
        path_head := by simp, path_marks := by simp, query_marks := by simp }
    let q : Parts := { p with query? := some "next=http://a.b/d".toList, query_marks := by simp }
    (p.IsCut Url.Domain.toAscii? ∧ q.IsCut Url.Domain.toAscii? ∧ p.CutsRight ∧ q.CutsRight) ∧
    of (String.ofList p.write) = "{{host}}:{{port}}/login?next=http://a.b/c" ∧
    of (String.ofList p.write) ≠ of (String.ofList q.write) := by
  intro p q
  have hp : p.IsCut Url.Domain.toAscii? := ⟨by decide +kernel, by decide +kernel⟩
  have hq : q.IsCut Url.Domain.toAscii? := ⟨by decide +kernel, by decide +kernel⟩
  have hp' : p.CutsRight := ⟨by rintro ⟨⟩, by rintro ⟨⟩⟩
  have hq' : q.CutsRight := ⟨by rintro ⟨⟩, by rintro ⟨⟩⟩
  obtain ⟨-, hresource, hdiffer⟩ := cut_endpoint_eq_iff p hp
  refine ⟨⟨hp, hq, hp', hq'⟩, hresource.2 hp', ?_⟩
  intro heq
  have hquery := (hdiffer q hq hp' hq' heq).2.2
  revert hquery
  decide

/-- The mark of a scheme in the query of a text without a scheme misleads the cut, and so does an
`@` in the query of a text without a path. -/
theorem cut_endpoint_misled :
    let p : Parts :=
      { scheme? := none, user? := none, authority := "{{baseUrl}}".toList, path := "/login".toList,
        query? := some "next=http://a.b/c".toList, fragment? := none,
        scheme_marks := by rintro scheme ⟨⟩, user_marks := by rintro user ⟨⟩,
        authority_marks := by simp, path_head := by simp, path_marks := by simp,
        query_marks := by simp }
    p.IsCut Url.Domain.toAscii? ∧
    String.ofList p.resource = "{{baseUrl}}/login?next=http://a.b/c" ∧
    of (String.ofList p.write) = "a.b/c" ∧
    of (String.ofList p.write) ≠ String.ofList p.resource ∧
    of "{{baseUrl}}/logout?next=http://a.b/c" = of (String.ofList p.write) ∧
    of "{{baseUrl}}?mail=a@b" = "b" := by
  intro p
  refine ⟨⟨?_, ?_⟩, ?_, ?_, ?_, ?_, ?_⟩ <;> decide +kernel

end Stencil.Endpoint
