import Stencil.Proofs.Endpoint.Parts

/-!
# Endpoints of URLs of the web

The endpoint of a URL of the web is told by its `Target`, which is what stands between the user and
the fragment. Whether the text is read as a URL (`parse?_write`) or cut (`ofText_write`), scheme,
user and fragment make no difference (`web_endpoint_eq`), provided that the port is none that a
scheme leaves out.
-/

namespace Stencil.Endpoint

open Text

/-- A text without line breaks and tabs. -/
def unbroken (cs : List Char) : List Char := cs.filter fun c => !Url.isSkipped c

/-- What stands in a URL of the web between the user and the fragment. The host is not empty, where
line breaks and tabs do not count, and no blank and no control is at the end. -/
structure Target where
  authority : List Char
  /-- The path and the query. -/
  tail : List Char
  authority_marks : ∀ c ∈ authority, c ∉ ['/', '\\', '?', '#', '@']
  authority_ne_nil : unbroken authority ≠ []
  tail_head : ∀ c ∈ tail.head?, c ∈ ['/', '\\', '?']
  tail_marks : '#' ∉ tail
  last : ∀ c ∈ (authority ++ tail).getLast?, isBlank c = false ∧ Url.isEdge c = false

/-- The schemes of the web, with the ports that they leave out. -/
inductive IsWeb : (scheme : List Char) → (port : Nat) → Prop
  | http : IsWeb "http".toList 80
  | https : IsWeb "https".toList 443

/-- A user in front of a host, with its mark, or nothing. -/
def IsUser (cs : List Char) : Prop :=
  cs = [] ∨ ∃ name, cs = name ++ ['@'] ∧ ∀ c ∈ name, c ∉ ['/', '\\', '?', '#']

/-- A fragment with its mark, or nothing. -/
def IsFragment (cs : List Char) : Prop := ∀ c ∈ cs.head?, c = '#'

namespace Target

/-- The text of a target. -/
def text (t : Target) : List Char := t.authority ++ t.tail

/-- The text of a URL with a target. -/
def write (t : Target) (scheme user fragment : List Char) : List Char :=
  scheme ++ schemeMark ++ (user ++ t.text ++ fragment)

/-- The port of a target, if there is a valid one. -/
def port? (t : Target) : Option Nat :=
  (Url.readPort? (Url.cutHost false (unbroken t.authority)).2).bind (·.1)

/-- The URL with a target in a scheme that leaves out one port. -/
def url? (t : Target) (toAscii? : Url.DomainReading) (usual : Nat) : Option Url := do
  let (host, behind) := Url.cutHost false (unbroken t.authority)
  let (port, _) ← Url.readPort? behind
  let (path, query) := Url.cutQuery (unbroken t.tail)
  pure ⟨← Url.Host.web? toAscii? host, Url.unusual usual port, ← Url.webPath? path,
    query.map (Url.encodeQuery true)⟩

end Target

/-! ## Characters of the parts -/

theorem mem_of_mem_unbroken {cs : List Char} {c : Char} (h : c ∈ unbroken cs) : c ∈ cs :=
  (List.mem_filter.1 h).1

theorem isUser_unbroken {user : List Char} (h : IsUser user) : IsUser (unbroken user) := by
  rcases h with rfl | ⟨name, rfl, hname⟩
  · exact .inl rfl
  · refine .inr ⟨unbroken name, ?_, fun c hc => hname c (mem_of_mem_unbroken hc)⟩
    rw [unbroken, List.filter_append]
    rfl

/-- No character of a user ends the authority. -/
theorem IsUser.marks {user : List Char} (h : IsUser user) {c : Char} (hc : c ∈ user) :
    c ∉ ['/', '\\', '?', '#'] := by
  rcases h with rfl | ⟨name, rfl, hname⟩
  · cases hc
  · rcases List.mem_append.1 hc with hc | hc
    · exact hname c hc
    · rw [List.mem_singleton.1 hc]
      decide

/-- A user in front of an authority is dropped from it. -/
theorem IsUser.dropUser_authority {user authority : List Char} (h : IsUser user)
    (hauthority : '@' ∉ authority) : Url.dropUser (user ++ authority) = authority := by
  have hself := (dropUser_authority_suffix authority).2.2 hauthority
  rcases h with rfl | ⟨name, rfl, -⟩
  · exact hself
  · rw [List.append_assoc]
    exact (dropUser_authority_append name authority).trans hself

/-- Nothing stands in front of the mark of a fragment. -/
theorem IsFragment.takeWhile {fragment : List Char} (h : IsFragment fragment) :
    fragment.takeWhile (· ≠ '#') = [] := by
  cases fragment with
  | nil => rfl
  | cons c cs =>
      rw [h c rfl]
      rfl

theorem isFragment_unbroken {fragment : List Char} (h : IsFragment fragment) :
    IsFragment (unbroken fragment) := by
  cases fragment with
  | nil => exact h
  | cons c cs =>
      obtain rfl : c = '#' := h c rfl
      rintro d ⟨⟩
      rfl

namespace Target

variable {t : Target} {scheme user fragment : List Char} {port : Nat}
  {toAscii? : Url.DomainReading}

theorem not_mem_unbroken_authority {c : Char} (h : c ∈ ['/', '\\', '?', '#', '@']) :
    c ∉ unbroken t.authority := fun hmem =>
  t.authority_marks c (mem_of_mem_unbroken hmem) h

/-! ## The ends of a URL -/

/-- What is dropped at the end of a text is dropped behind a character that is kept. -/
theorem dropEnd_append {drops : Char → Bool} {d : Char} (h : drops d = false)
    (front cs : List Char) : ((front ++ d :: cs).reverse.dropWhile drops).reverse =
      front ++ d :: (cs.reverse.dropWhile drops).reverse := by
  have hreverse : (front ++ d :: cs).reverse = cs.reverse ++ d :: front.reverse := by simp
  rw [hreverse, List.dropWhile_append]
  split
  next hall =>
    rw [List.dropWhile_cons, h, List.isEmpty_iff.1 hall]
    simp
  next => simp

/-- At the end of a URL, nothing is dropped but the end of its fragment. -/
theorem exists_dropEnd {drops : Char → Bool} (hmark : drops '#' = false)
    (hlast : ∀ c ∈ t.text.getLast?, drops c = false) (scheme user : List Char)
    (hfragment : IsFragment fragment) : ∃ fragment', IsFragment fragment' ∧
      ((t.write scheme user fragment).reverse.dropWhile drops).reverse =
        t.write scheme user fragment' := by
  cases fragment with
  | nil =>
      have hne : t.text ≠ [] := by
        intro hnil
        apply t.authority_ne_nil
        rw [(List.append_eq_nil_iff.1 hnil).1]
        rfl
      have hwrite : t.write scheme user [] =
          scheme ++ schemeMark ++ user ++ t.text.dropLast ++ [t.text.getLast hne] := by
        rw [List.append_assoc _ _ [_], List.dropLast_concat_getLast]
        simp [write]
      refine ⟨[], hfragment, ?_⟩
      rw [hwrite]
      exact dropEnd_append (hlast _ (List.getLast?_eq_some_getLast hne)) _ []
  | cons c fragment =>
      obtain rfl : c = '#' := hfragment c rfl
      have hwrite : ∀ cs, t.write scheme user cs =
          scheme ++ schemeMark ++ (user ++ t.text) ++ cs := by
        intro cs
        simp [write]
      refine ⟨'#' :: (fragment.reverse.dropWhile drops).reverse, by rintro d ⟨⟩; rfl, ?_⟩
      rw [hwrite, hwrite]
      exact dropEnd_append hmark _ fragment

theorem write_eq_cons (h : IsWeb scheme port) (user fragment : List Char) :
    ∃ cs, t.write scheme user fragment = 'h' :: cs := by
  cases h with
  | http => exact ⟨_, rfl⟩
  | https => exact ⟨_, rfl⟩

/-- Trimming a URL changes its fragment at most. -/
theorem exists_trim_write (h : IsWeb scheme port) (hfragment : IsFragment fragment) :
    ∃ fragment', IsFragment fragment' ∧
      trim (t.write scheme user fragment) = t.write scheme user fragment' := by
  have hlast : ∀ c ∈ t.text.getLast?, isBlank c = false := fun c hc => (t.last c hc).1
  obtain ⟨fragment', hfragment', hdrop⟩ :=
    exists_dropEnd (by decide) hlast scheme user hfragment
  refine ⟨fragment', hfragment', ?_⟩
  obtain ⟨cs, hcons⟩ := write_eq_cons (t := t) h user fragment
  have hstart : trimStart (t.write scheme user fragment) = t.write scheme user fragment := by
    rw [hcons]
    exact trimStart_cons_of_not_blank (by decide)
  rw [trim, hstart]
  exact hdrop

/-- Cleaning a URL takes out its line breaks and tabs, and else changes its fragment at most. -/
theorem exists_clean_write (h : IsWeb scheme port) (hfragment : IsFragment fragment) :
    ∃ fragment', IsFragment fragment' ∧ Url.clean (t.write scheme user fragment) =
      scheme ++ schemeMark ++
        (unbroken user ++ unbroken t.authority ++ unbroken t.tail ++ fragment') := by
  have hlast : ∀ c ∈ t.text.getLast?, Url.isEdge c = false := fun c hc => (t.last c hc).2
  obtain ⟨fragment', hfragment', hdrop⟩ :=
    exists_dropEnd (by decide) hlast scheme user hfragment
  refine ⟨unbroken fragment', isFragment_unbroken hfragment', ?_⟩
  obtain ⟨cs, hcons⟩ := write_eq_cons (t := t) h user fragment
  have hstart : (t.write scheme user fragment).dropWhile Url.isEdge =
      t.write scheme user fragment := by
    rw [hcons]
    rfl
  have hscheme : unbroken scheme = scheme := by cases h <;> decide
  rw [Url.clean, hstart, hdrop]
  show unbroken (scheme ++ schemeMark ++ (user ++ (t.authority ++ t.tail) ++ fragment')) = _
  simp only [unbroken, List.filter_append] at hscheme ⊢
  rw [hscheme, ← List.append_assoc (List.filter _ user)]
  rfl

/-! ## Reading a URL -/

/-- A scheme of the web is read with the port that it leaves out. -/
theorem scheme?_append (h : IsWeb scheme port) (cs : List Char) :
    Url.scheme? (scheme ++ schemeMark ++ cs) = some (.web port, '/' :: '/' :: cs) := by
  have hcolon : ':' ∉ scheme := by cases h <;> decide
  have happend : scheme ++ schemeMark ++ cs = scheme ++ ':' :: ('/' :: '/' :: cs) := by
    simp [schemeMark]
  rw [Url.scheme?, happend, cutChar?_append hcolon]
  cases h with
  | http => rfl
  | https => rfl

theorem cutQuery_append {front : List Char} (h : '?' ∉ front) (cs : List Char) :
    Url.cutQuery (front ++ cs) = (front ++ (Url.cutQuery cs).1, (Url.cutQuery cs).2) := by
  rw [Url.cutQuery, Url.cutQuery, cutChar?_append_left h]
  cases cutChar? '?' cs <;> rfl

/-- What stands in front of a query begins as the text does. -/
theorem head?_cutQuery {cs : List Char} {c : Char} (h : c ∈ (Url.cutQuery cs).1.head?) :
    c ∈ cs.head? ∧ c ≠ '?' := by
  cases cs with
  | nil => cases h
  | cons d cs =>
      by_cases hd : d = '?'
      · simp [Url.cutQuery, cutChar?, hd] at h
      · have hhead : (Url.cutQuery (d :: cs)).1.head? = some d := by
          rw [Url.cutQuery, cutChar?, if_neg hd]
          cases cutChar? '?' cs <;> rfl
        obtain rfl : d = c := Option.some.inj (hhead.symm.trans h)
        exact ⟨rfl, hd⟩

/-- The path of a target is empty or begins with a slash. -/
theorem isSlash_path {c : Char} (h : c ∈ (Url.cutQuery (unbroken t.tail)).1.head?) :
    Url.isSlash c = true := by
  obtain ⟨hhead, hquery⟩ := head?_cutQuery h
  cases htail : t.tail with
  | nil => simp [htail, unbroken] at hhead
  | cons d tail =>
      have hd := t.tail_head d (by simp [htail])
      simp only [List.mem_cons, List.not_mem_nil, or_false] at hd
      have hkept : Url.isSkipped d = false := by rcases hd with rfl | rfl | rfl <;> decide
      obtain rfl : d = c := by simpa [htail, unbroken, hkept] using hhead
      rcases hd with rfl | rfl | rfl
      · rfl
      · rfl
      · exact absurd rfl hquery

/-- Behind the scheme, the user is dropped in front of the host. -/
theorem web?_append {authority path : List Char} (huser : IsUser user)
    (hauthority : ∀ c ∈ authority, c ∉ ['/', '\\', '?', '#', '@']) (hne : authority ≠ [])
    (hpath : ∀ c ∈ path.head?, Url.isSlash c = true) (usual : Nat) (query : Option (List Char)) :
    Url.web? toAscii? usual ('/' :: '/' :: (user ++ authority ++ path)) query = (do
      let (host, behind) := Url.cutHost false authority
      let (port, _) ← Url.readPort? behind
      pure ⟨← Url.Host.web? toAscii? host, Url.unusual usual port, ← Url.webPath? path,
        query⟩) := by
  have hfront : ∀ c ∈ user ++ authority, (!Url.isSlash c) = true := by
    intro c hc
    have hmarks : c ≠ '/' ∧ c ≠ '\\' := by
      rcases List.mem_append.1 hc with hc | hc
      · have hnot := huser.marks hc
        simp only [List.mem_cons, not_or] at hnot
        exact ⟨hnot.1, hnot.2.1⟩
      · have hnot := hauthority c hc
        simp only [List.mem_cons, not_or] at hnot
        exact ⟨hnot.1, hnot.2.1⟩
    simp [Url.isSlash, hmarks]
  have hstart : ('/' :: '/' :: (user ++ authority ++ path)).dropWhile Url.isSlash =
      user ++ authority ++ path := by
    obtain ⟨c, cs, hcons⟩ := List.exists_cons_of_ne_nil
      (List.append_ne_nil_of_right_ne_nil user hne)
    have hslash : Url.isSlash c = false := by
      simpa using hfront c (by rw [hcons]; exact List.mem_cons_self)
    rw [hcons]
    show (c :: (cs ++ path)).dropWhile Url.isSlash = c :: (cs ++ path)
    rw [List.dropWhile_cons, hslash]
    rfl
  have htake : (user ++ authority ++ path).takeWhile (fun c => !Url.isSlash c) =
      user ++ authority := by
    rw [List.takeWhile_append_of_pos hfront]
    cases path with
    | nil => simp
    | cons c path => simp [hpath c rfl]
  have hdrop : (user ++ authority ++ path).dropWhile (fun c => !Url.isSlash c) = path := by
    rw [List.dropWhile_append_of_pos hfront]
    cases path with
    | nil => rfl
    | cons c path => simp [hpath c rfl]
  have hat : '@' ∉ authority := fun h => hauthority '@' h (by decide)
  rw [Url.web?]
  dsimp only
  rw [hstart, htake, hdrop, huser.dropUser_authority hat]

/-- A URL of the web is read by its target. -/
theorem parse?_write (t : Target) (h : IsWeb scheme port) (huser : IsUser user)
    (hfragment : IsFragment fragment) :
    Url.parse? toAscii? (t.write scheme user fragment) = t.url? toAscii? port := by
  obtain ⟨fragment', hfragment', hclean⟩ : ∃ fragment', IsFragment fragment' ∧
      Url.clean (t.write scheme user fragment) = scheme ++ schemeMark ++
        (unbroken user ++ unbroken t.authority ++ unbroken t.tail ++ fragment') :=
    exists_clean_write h hfragment
  have huser' := isUser_unbroken huser
  have hfront : ∀ d ∈ ['?', '#'], d ∉ '/' :: '/' :: (unbroken user ++ unbroken t.authority) := by
    intro d hd hmem
    have hslash : d ≠ '/' := by
      rintro rfl
      exact absurd hd (by decide)
    have hauthority : d ∉ unbroken t.authority :=
      not_mem_unbroken_authority (List.mem_cons_of_mem _ (List.mem_cons_of_mem _
        (List.mem_append_left ['@'] hd)))
    simp only [List.mem_cons, List.mem_append, hslash, hauthority, false_or, or_false] at hmem
    exact huser'.marks hmem (List.mem_cons_of_mem _ (List.mem_cons_of_mem _ hd))
  have hmark : '#' ∉ '/' :: '/' :: (unbroken user ++ unbroken t.authority) ++ unbroken t.tail := by
    rw [List.mem_append, not_or]
    exact ⟨hfront '#' (by decide), fun hmem => t.tail_marks (mem_of_mem_unbroken hmem)⟩
  have hdrop : Url.dropFragment ('/' :: '/' ::
      (unbroken user ++ unbroken t.authority ++ unbroken t.tail ++ fragment')) =
      '/' :: '/' :: (unbroken user ++ unbroken t.authority) ++ unbroken t.tail := by
    have hkeep := takeWhile_ne_append hmark fragment'
    rwa [hfragment'.takeWhile, List.append_nil] at hkeep
  rw [Url.parse?, hclean, scheme?_append h]
  show Url.web? toAscii? port (Url.cutQuery (Url.dropFragment _)).1
    ((Url.cutQuery (Url.dropFragment _)).2.map (Url.encodeQuery true)) = t.url? toAscii? port
  rw [hdrop, cutQuery_append (hfront '?' (by decide))]
  exact web?_append huser' (fun c hc => t.authority_marks c (mem_of_mem_unbroken hc))
    t.authority_ne_nil (fun c hc => isSlash_path hc) port _

/-- A port that no scheme leaves out is left out in none. -/
theorem url?_eq (t : Target) (hport : t.port? ∉ [some 80, some 443]) (h : IsWeb scheme port) :
    t.url? toAscii? port = t.url? toAscii? 80 := by
  cases h with
  | http => rfl
  | https =>
      simp only [port?, List.mem_cons, List.not_mem_nil, or_false, not_or] at hport
      rw [url?, url?]
      cases hread : Url.readPort? (Url.cutHost false (unbroken t.authority)).2 with
      | none => simp only [hread, Option.bind_eq_bind, Option.bind_none]
      | some parts =>
          obtain ⟨port, behind⟩ := parts
          rw [hread] at hport
          obtain ⟨h80, h443⟩ : port ≠ some 80 ∧ port ≠ some 443 := hport
          have hunusual : Url.unusual 443 port = Url.unusual 80 port := by
            rw [Url.unusual, Url.unusual, if_neg h80, if_neg h443]
          simp only [hread, Option.bind_eq_bind, Option.bind_some, hunusual]

/-! ## Cutting a URL -/

/-- A URL of the web that is cut is cut to what is left of its target. -/
theorem ofText_write (t : Target) (h : IsWeb scheme port) (huser : IsUser user)
    (hfragment : IsFragment fragment) :
    ofText (t.write scheme user fragment) = dropUser t.text := by
  have hmark : '#' ∉ scheme ++ schemeMark ++ (user ++ t.text) := by
    intro hmem
    rcases List.mem_append.1 hmem with hmem | hmem
    · revert hmem
      cases h <;> decide
    · rcases List.mem_append.1 hmem with hmem | hmem
      · exact huser.marks hmem (by decide)
      · rcases List.mem_append.1 hmem with hmem | hmem
        · exact t.authority_marks '#' hmem (by decide)
        · exact t.tail_marks hmem
  have hdrop : Url.dropFragment (t.write scheme user fragment) =
      scheme ++ schemeMark ++ (user ++ t.text) := by
    have hkeep := takeWhile_ne_append hmark fragment
    rwa [hfragment.takeWhile, List.append_nil, List.append_assoc] at hkeep
  have hcolon : ':' ∉ scheme := by cases h <;> decide
  rw [ofText, hdrop, dropScheme_append hcolon]
  rcases huser with rfl | ⟨name, rfl, hname⟩
  · rfl
  · rw [List.append_assoc]
    exact dropUser_append (fun hmem => hname '/' hmem (by decide)) t.text

end Target

/-- Scheme, user and fragment of a URL of the web make no difference to its endpoint, nor to
whether it is read as a URL or cut, however domain names are read. -/
theorem web_endpoint_eq (t : Target) (hport : t.port? ∉ [some 80, some 443])
    {scheme user fragment : List Char} {port : Nat} (hscheme : IsWeb scheme port)
    (huser : IsUser user) (hfragment : IsFragment fragment) (toAscii? : Url.DomainReading) :
    (Url.parse? toAscii? (t.write scheme user fragment)).isSome =
      (Url.parse? toAscii? (t.write "http".toList [] [])).isSome ∧
    of (String.ofList (t.write scheme user fragment)) toAscii? =
      of (String.ofList (t.write "http".toList [] [])) toAscii? := by
  have hendpoint : ∀ {scheme user fragment port}, IsWeb scheme port → IsUser user →
      IsFragment fragment → of (String.ofList (t.write scheme user fragment)) toAscii? =
        String.ofList ((t.url? toAscii? 80).elim (dropUser t.text) ofUrl) := by
    intro scheme user fragment port hscheme huser hfragment
    obtain ⟨fragment', hfragment', htrim⟩ : ∃ fragment', IsFragment fragment' ∧
        trim (t.write scheme user fragment) = t.write scheme user fragment' :=
      Target.exists_trim_write hscheme hfragment
    rw [of, String.toList_ofList, htrim, t.parse?_write hscheme huser hfragment',
      t.ofText_write hscheme huser hfragment', t.url?_eq hport hscheme]
  have hnobody : IsUser [] := .inl rfl
  have hnothing : IsFragment [] := by
    intro c hc
    cases hc
  constructor
  · rw [t.parse?_write hscheme huser hfragment, t.parse?_write .http hnobody hnothing,
      t.url?_eq hport hscheme]
  · rw [hendpoint hscheme huser hfragment, hendpoint .http hnobody hnothing]

/-- A port that stays, an `@` in the user and in the query, and a slash in the fragment. -/
theorem web_endpoint_eq_users :
    let t : Target :=
      { authority := "api.example.com:8080".toList, tail := "/users?mail=a@b".toList,
        authority_marks := by simp, authority_ne_nil := by decide, tail_head := by simp,
        tail_marks := by simp, last := by rintro c ⟨⟩; decide }
    t.port? ∉ [some 80, some 443] ∧ IsWeb "https".toList 443 ∧ IsUser "me:p@ss@".toList ∧
    IsFragment "#top/1".toList ∧
    of "https://me:p@ss@api.example.com:8080/users?mail=a@b#top/1" =
      of "http://api.example.com:8080/users?mail=a@b" := by
  intro t
  have hport : t.port? ∉ [some 80, some 443] := by decide
  have huser : IsUser "me:p@ss@".toList := .inr ⟨"me:p@ss".toList, rfl, by simp⟩
  have hfragment : IsFragment "#top/1".toList := by
    intro c hc
    cases hc
    rfl
  exact ⟨hport, .https, huser, hfragment, (web_endpoint_eq t hport .https huser hfragment _).2⟩

end Stencil.Endpoint
