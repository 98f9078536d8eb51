/-!
# Dictionaries

A dictionary from strings to values: its entries in the order of their keys, each key once. The
order of strings is that of their code points, which is also the order of their UTF-8 bytes. Two
dictionaries with the same look-ups are equal (`ext`), so a dictionary is determined by what
`get?` says; `get?_insert` and `get?_empty` say it for each way to build one.
-/

namespace Stencil

/-! ## Entries in order -/

namespace Entries

variable {α : Type}

/-- The keys of the entries ascend. -/
def Ascending (entries : List (String × α)) : Prop :=
  entries.Pairwise fun a b => a.1 < b.1

/-- The value of the entry under `key`. -/
def find? (key : String) : List (String × α) → Option α
  | [] => none
  | (k, v) :: rest => if k = key then some v else find? key rest

/-- Puts an entry in its place and drops the one that had its key. -/
def put (key : String) (value : α) : List (String × α) → List (String × α)
  | [] => [(key, value)]
  | (k, v) :: rest =>
    if key < k then (key, value) :: (k, v) :: rest
    else if k = key then (key, value) :: rest
    else (k, v) :: put key value rest

theorem find?_put (key k : String) (value : α) (entries : List (String × α)) :
    find? k (put key value entries) = if k = key then some value else find? k entries := by
  induction entries with
  | nil => simp only [put, find?, eq_comm]
  | cons e rest ih =>
    obtain ⟨k', v⟩ := e
    unfold put
    split
    · by_cases h : k = key
      · simp [find?, h]
      · simp [find?, h, Ne.symm h]
    · split
      next hk =>
        subst hk
        by_cases h : k = k'
        · simp [find?, h]
        · simp [find?, h, Ne.symm h]
      next hk =>
        by_cases h : k = key
        · subst h; simp [find?, hk, ih]
        · simp [find?, h, ih]

theorem mem_put {key : String} {value : α} {entries : List (String × α)} {e : String × α}
    (h : e ∈ put key value entries) : e = (key, value) ∨ e ∈ entries := by
  induction entries with
  | nil => simpa [put] using h
  | cons e' rest ih =>
    obtain ⟨k', v⟩ := e'
    unfold put at h
    split at h
    · simpa using h
    · split at h
      · rcases List.mem_cons.1 h with h | h <;> simp [h]
      · rcases List.mem_cons.1 h with h | h
        · simp [h]
        · rcases ih h with h | h <;> simp [h]

theorem ascending_put (key : String) (value : α) {entries : List (String × α)}
    (h : Ascending entries) : Ascending (put key value entries) := by
  induction entries with
  | nil => exact List.pairwise_singleton _ _
  | cons e rest ih =>
    obtain ⟨k, v⟩ := e
    obtain ⟨hk, hrest⟩ := List.pairwise_cons.1 h
    unfold put
    split
    next hlt =>
      refine List.pairwise_cons.2 ⟨fun b hb => ?_, h⟩
      rcases List.mem_cons.1 hb with rfl | hb
      · exact hlt
      · exact String.lt_trans hlt (hk b hb)
    next hge =>
      split
      next heq => subst heq; exact List.pairwise_cons.2 ⟨hk, hrest⟩
      next hne =>
        refine List.pairwise_cons.2 ⟨fun b hb => ?_, ih hrest⟩
        rcases mem_put hb with rfl | hb
        · refine String.not_le.1 fun hle => hne ?_
          exact (String.le_antisymm hle (String.not_lt.1 hge)).symm
        · exact hk b hb

theorem find?_eq_none_of_lt {key : String} {entries : List (String × α)}
    (h : ∀ e ∈ entries, key < e.1) : find? key entries = none := by
  induction entries with
  | nil => rfl
  | cons e rest ih =>
    obtain ⟨k, v⟩ := e
    have hk : key < k := h (k, v) (by simp)
    have hne : k ≠ key := fun heq => String.lt_irrefl _ (heq ▸ hk)
    simp [find?, hne, ih fun e he => h e (List.mem_cons_of_mem _ he)]

theorem find?_of_mem {entries : List (String × α)} (hascending : Ascending entries)
    {e : String × α} (h : e ∈ entries) : find? e.1 entries = some e.2 := by
  induction entries with
  | nil => cases h
  | cons e' rest ih =>
    obtain ⟨hfirst, hrest⟩ := List.pairwise_cons.1 hascending
    rcases List.mem_cons.1 h with rfl | h
    · simp [find?]
    · have hne : e'.1 ≠ e.1 := fun heq => String.lt_irrefl _ (heq ▸ hfirst e h)
      simp [find?, hne, ih hrest h]

theorem mem_of_find? {key : String} {value : α} {entries : List (String × α)}
    (h : find? key entries = some value) : (key, value) ∈ entries := by
  induction entries with
  | nil => cases h
  | cons e rest ih =>
    rw [find?] at h
    split at h
    next hk =>
      obtain ⟨rfl⟩ := h
      obtain ⟨rfl⟩ := hk
      exact List.mem_cons_self
    next => exact List.mem_cons_of_mem _ (ih h)

/-- Ascending entries with the same look-ups are the same entries. -/
theorem eq_of_find?_eq {a b : List (String × α)} (ha : Ascending a) (hb : Ascending b)
    (h : ∀ k, find? k a = find? k b) : a = b := by
  induction a generalizing b with
  | nil =>
    cases b with
    | nil => rfl
    | cons e b => simpa [find?] using h e.1
  | cons e a ih =>
    cases b with
    | nil => simpa [find?] using h e.1
    | cons f b =>
      obtain ⟨ka, va⟩ := e
      obtain ⟨kb, vb⟩ := f
      obtain ⟨ha1, ha2⟩ := List.pairwise_cons.1 ha
      obtain ⟨hb1, hb2⟩ := List.pairwise_cons.1 hb
      have hkey : ka = kb := by
        refine String.le_antisymm (String.not_lt.1 fun hlt => ?_)
          (String.not_lt.1 fun hlt => ?_)
        · have hnone : find? kb ((ka, va) :: a) = none := find?_eq_none_of_lt fun e he => by
            rcases List.mem_cons.1 he with rfl | he
            · exact hlt
            · exact String.lt_trans hlt (ha1 e he)
          have := h kb
          rw [hnone] at this
          simp [find?] at this
        · have hnone : find? ka ((kb, vb) :: b) = none := find?_eq_none_of_lt fun e he => by
            rcases List.mem_cons.1 he with rfl | he
            · exact hlt
            · exact String.lt_trans hlt (hb1 e he)
          have := h ka
          rw [hnone] at this
          simp [find?] at this
      subst hkey
      have hval : va = vb := by simpa [find?] using h ka
      subst hval
      refine congrArg _ (ih ha2 hb2 fun k => ?_)
      by_cases hk : k = ka
      · subst hk
        rw [find?_eq_none_of_lt ha1, find?_eq_none_of_lt hb1]
      · simpa [find?, Ne.symm hk] using h k

end Entries

/-! ## The type -/

/-- A finite map from strings to values. -/
structure Dict (α : Type) where
  /-- The entries in the order of their keys. -/
  toList : List (String × α)
  /-- Each key stands once, in its place. -/
  ascending : Entries.Ascending toList

namespace Dict

variable {α β : Type}

/-- The dictionary without entries. -/
def empty : Dict α := ⟨[], List.Pairwise.nil⟩

instance : EmptyCollection (Dict α) := ⟨empty⟩

instance : Inhabited (Dict α) := ⟨empty⟩

instance [DecidableEq α] : DecidableEq (Dict α) := fun a b =>
  decidable_of_iff (a.toList = b.toList) (by cases a; cases b; simp)

/-- The value under a key. -/
def get? (d : Dict α) (key : String) : Option α := Entries.find? key d.toList

/-- Sets the value under a key. -/
def insert (d : Dict α) (key : String) (value : α) : Dict α :=
  ⟨Entries.put key value d.toList, Entries.ascending_put key value d.ascending⟩

/-- Whether a key has a value. -/
def contains (d : Dict α) (key : String) : Bool := (d.get? key).isSome

/-- The number of keys. -/
def size (d : Dict α) : Nat := d.toList.length

/-- Whether there is no key. -/
def isEmpty (d : Dict α) : Bool := d.toList.isEmpty

/-- The keys in order. -/
def keys (d : Dict α) : List String := d.toList.map (·.1)

/-- Sets the values of a list one after the other, so the last one under a key stays. -/
def insertAll (d : Dict α) (entries : List (String × α)) : Dict α :=
  entries.foldl (fun d e => d.insert e.1 e.2) d

/-- The dictionary of a list of entries; the last one under a key counts. -/
def ofList (entries : List (String × α)) : Dict α := empty.insertAll entries

@[simp] theorem insertAll_cons (d : Dict α) (e : String × α) (rest : List (String × α)) :
    d.insertAll (e :: rest) = (d.insert e.1 e.2).insertAll rest := rfl

@[simp] theorem get?_empty (key : String) : (empty : Dict α).get? key = none := rfl

@[simp] theorem get?_insert (d : Dict α) (key k : String) (value : α) :
    (d.insert key value).get? k = if k = key then some value else d.get? k :=
  Entries.find?_put key k value d.toList

theorem get?_of_mem {d : Dict α} {e : String × α} (h : e ∈ d.toList) : d.get? e.1 = some e.2 :=
  Entries.find?_of_mem d.ascending h

theorem get?_eq_some_iff {d : Dict α} {key : String} {value : α} :
    d.get? key = some value ↔ (key, value) ∈ d.toList :=
  ⟨Entries.mem_of_find?, get?_of_mem⟩

theorem key_ne_of_get? {d : Dict α} {key : String} (h : d.get? key = none) {e : String × α}
    (he : e ∈ d.toList) : e.1 ≠ key := by
  rintro rfl
  rw [get?_of_mem he] at h
  cases h

theorem nodup_keys (d : Dict α) : d.keys.Nodup := by
  have hne : d.toList.Pairwise fun a b => a.1 ≠ b.1 := by
    refine d.ascending.imp ?_
    intro a b hlt heq
    rw [heq] at hlt
    exact String.lt_irrefl _ hlt
  exact List.pairwise_map.2 hne

/-- Behind the entry of a key stand those of greater keys. -/
theorem exists_of_get? {d : Dict α} {key : String} {value : α} (h : d.get? key = some value) :
    ∃ before after, d.toList = before ++ (key, value) :: after ∧ ∀ e ∈ after, key < e.1 := by
  obtain ⟨before, after, hlist⟩ := List.append_of_mem (get?_eq_some_iff.1 h)
  have hascending := d.ascending
  rw [hlist] at hascending
  obtain ⟨-, hbehind, -⟩ := List.pairwise_append.1 hascending
  exact ⟨before, after, hlist, (List.pairwise_cons.1 hbehind).1⟩

/-- A dictionary is determined by its look-ups. -/
theorem ext {a b : Dict α} (h : ∀ k, a.get? k = b.get? k) : a = b := by
  obtain ⟨as, ha⟩ := a
  obtain ⟨bs, hb⟩ := b
  obtain rfl : as = bs := Entries.eq_of_find?_eq ha hb h
  rfl

theorem get?_insertAll (d : Dict α) {entries : List (String × α)}
    (h : Entries.Ascending entries) (k : String) :
    (d.insertAll entries).get? k = (Entries.find? k entries).or (d.get? k) := by
  induction entries generalizing d with
  | nil => rfl
  | cons e rest ih =>
    obtain ⟨hfirst, hrest⟩ := List.pairwise_cons.1 h
    rw [insertAll_cons, ih (d.insert e.1 e.2) hrest, get?_insert]
    by_cases hk : k = e.1
    · subst hk
      simp [Entries.find?, Entries.find?_eq_none_of_lt hfirst]
    · simp [Entries.find?, hk, Ne.symm hk]

theorem get?_insertAll_eq_or (d : Dict α) (entries : List (String × α)) (k : String) :
    (d.insertAll entries).get? k = ((ofList entries).get? k).or (d.get? k) := by
  induction entries generalizing d with
  | nil => rfl
  | cons e rest ih =>
    rw [ofList, insertAll_cons, insertAll_cons, ih, ih (empty.insert _ _), Option.or_assoc,
      get?_insert, get?_insert]
    split
    · rfl
    · rfl

theorem get?_ofList_cons (e : String × α) (rest : List (String × α)) (k : String) :
    (ofList (e :: rest)).get? k =
      ((ofList rest).get? k).or (if k = e.1 then some e.2 else none) := by
  rw [ofList, insertAll_cons, get?_insertAll_eq_or, get?_insert]
  rfl

theorem get?_ofList_eq_none_iff {entries : List (String × α)} {k : String} :
    (ofList entries).get? k = none ↔ ∀ e ∈ entries, e.1 ≠ k := by
  induction entries with
  | nil => simp [ofList, insertAll]
  | cons e rest ih =>
    rw [get?_ofList_cons, Option.or_eq_none_iff, ih, List.forall_mem_cons, and_comm,
      ite_eq_right_iff]
    simp [eq_comm]

/-- Of the entries under a key the last one counts. -/
theorem get?_ofList_eq_some_iff {entries : List (String × α)} {k : String} {v : α} :
    (ofList entries).get? k = some v ↔
      ∃ before after, entries = before ++ (k, v) :: after ∧ ∀ e ∈ after, e.1 ≠ k := by
  constructor
  · intro h
    induction entries with
    | nil => cases h
    | cons e rest ih =>
      rw [get?_ofList_cons] at h
      cases hrest : (ofList rest).get? k with
      | some w =>
        rw [hrest] at h
        obtain ⟨before, after, rfl, hafter⟩ := ih (hrest.trans h)
        exact ⟨e :: before, after, rfl, hafter⟩
      | none =>
        rw [hrest, Option.none_or] at h
        split at h
        next hk =>
          obtain ⟨rfl⟩ := h
          exact ⟨[], rest, by rw [hk]; rfl, get?_ofList_eq_none_iff.1 hrest⟩
        next => cases h
  · rintro ⟨before, after, rfl, hafter⟩
    induction before with
    | nil =>
      rw [List.nil_append, get?_ofList_cons, get?_ofList_eq_none_iff.2 hafter]
      simp
    | cons e before ih =>
      rw [List.cons_append, get?_ofList_cons, ih]
      rfl

theorem get?_ofList_of_nodup {entries : List (String × α)} (h : (entries.map (·.1)).Nodup)
    {k : String} {v : α} : (ofList entries).get? k = some v ↔ (k, v) ∈ entries := by
  rw [get?_ofList_eq_some_iff]
  constructor
  · rintro ⟨before, after, rfl, -⟩
    simp
  · intro hmem
    obtain ⟨before, after, rfl⟩ := List.append_of_mem hmem
    refine ⟨before, after, rfl, fun e he heq => ?_⟩
    rw [List.map_append, List.map_cons] at h
    have hnot := (List.nodup_cons.1 (List.nodup_append.1 h).2.1).1
    exact hnot (List.mem_map.2 ⟨e, he, heq⟩)

/-- The order of entries under different keys does not matter. -/
theorem ofList_eq_of_perm {a b : List (String × α)} (hnodup : (a.map (·.1)).Nodup)
    (h : a.Perm b) : ofList a = ofList b := by
  refine ext fun k => Option.ext fun v => ?_
  rw [get?_ofList_of_nodup hnodup, get?_ofList_of_nodup ((h.map _).nodup_iff.1 hnodup), h.mem_iff]

/-- A dictionary is that of its entries. -/
theorem ofList_toList (d : Dict α) : ofList d.toList = d := by
  refine ext fun k => ?_
  rw [ofList, get?_insertAll empty d.ascending, get?_empty, Option.or_none]
  rfl

end Dict

end Stencil
