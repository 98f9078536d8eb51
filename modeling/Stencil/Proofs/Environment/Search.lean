import Stencil.Environment.Configuration
import Stencil.Proofs.Except

/-!
# The nearest configuration file

A search looks at a directory and the three above it, or at fewer where a path has no more parents.
It settles on the first that has a configuration file, and there on the preferred name (`Nearest`).
The loop over the directories is a search through the numbers of steps (`find?_eq_findSome?`), of
which the first hit is taken (`find?_eq_some_iff`), so nothing behind the hit is looked at, whatever
the file that was hit turns out to hold. The main statement is `nearest_file_decides`.
-/

namespace Stencil

/-- The directory so many steps above a path, if there are so many. -/
def Path.above? : (steps : Nat) → String → Option String
  | 0, path => some path
  | steps + 1, path => (above? steps path).bind parent?

namespace Configuration

/-- The file that a search from a directory settles on. Only files count, not directories with
their names. -/
structure Nearest (fs : FileSystem) (start : String) (steps : Nat) (directory name : String) :
    Prop where
  within : steps ≤ 3
  above : Path.above? steps start = some directory
  isName : name ∈ fileNames
  isFile : fs.isFile (Path.join directory name) = true
  /-- No directory on the way has a configuration file. -/
  nearer : ∀ n < steps, ∀ d, Path.above? n start = some d →
    ∀ other ∈ fileNames, fs.isFile (Path.join d other) = false
  /-- The other name is taken only where there is no file with the preferred one. -/
  preferred : name = ".http-client-env.json" ∨
    fs.isFile (Path.join directory ".http-client-env.json") = false

variable {fs : FileSystem} {start directory path : String} {steps : Nat}

/-! ## One directory -/

theorem fileIn?_eq_none_iff :
    fileIn? fs directory = none ↔
      ∀ name ∈ fileNames, fs.isFile (Path.join directory name) = false := by
  simp [fileIn?, fileNames]

/-- The preferred file of a directory is taken if it is there, else the other one. -/
theorem fileIn?_eq (fs : FileSystem) (directory : String) :
    fileIn? fs directory =
      if fs.isFile (Path.join directory ".http-client-env.json") then
        some (Path.join directory ".http-client-env.json")
      else if fs.isFile (Path.join directory "http-client.env.json") then
        some (Path.join directory "http-client.env.json")
      else none := by
  simp only [fileIn?, fileNames, List.map_cons, List.map_nil, List.find?_cons, List.find?_nil]
  cases fs.isFile (Path.join directory ".http-client-env.json") with
  | true => rfl
  | false => cases fs.isFile (Path.join directory "http-client.env.json") <;> rfl

theorem fileIn?_eq_some_iff :
    fileIn? fs directory = some path ↔
      ∃ name ∈ fileNames, Path.join directory name = path ∧
        fs.isFile (Path.join directory name) = true ∧
        (name = ".http-client-env.json" ∨
          fs.isFile (Path.join directory ".http-client-env.json") = false) := by
  have hfirst : ".http-client-env.json" ∈ fileNames := List.mem_cons_self
  have hsecond : "http-client.env.json" ∈ fileNames := List.mem_cons_of_mem _ List.mem_cons_self
  rw [fileIn?_eq]
  constructor
  · intro h
    split at h
    next hfile => exact ⟨_, hfirst, Option.some.inj h, hfile, .inl rfl⟩
    next hmiss =>
      split at h
      next hfile =>
        exact ⟨_, hsecond, Option.some.inj h, hfile, .inr (Bool.eq_false_iff.2 hmiss)⟩
      next => cases h
  · rintro ⟨name, hname, rfl, hfile, rfl | hmiss⟩
    · rw [if_pos hfile]
    · rcases List.mem_cons.1 hname with rfl | hname
      · rw [hmiss] at hfile
        cases hfile
      · obtain rfl := List.mem_singleton.1 hname
        rw [if_neg (Bool.eq_false_iff.1 hmiss), if_pos hfile]

/-! ## The directories above -/

/-- The first step may be taken first. -/
theorem above?_succ (steps : Nat) (path : String) :
    Path.above? (steps + 1) path = (Path.parent? path).bind (Path.above? steps) := by
  induction steps with
  | zero =>
      show (some path).bind Path.parent? = (Path.parent? path).bind some
      rw [Option.bind_some, Option.bind_fun_some]
  | succ steps ih =>
      rw [Path.above?, ih, Option.bind_assoc]
      rfl

/-- The directories that are looked at, by the number of steps to them. -/
theorem getElem?_directories (more n : Nat) (start : String) :
    (directories more start)[n]? = if n ≤ more then Path.above? n start else none := by
  induction more generalizing n start with
  | zero => cases n <;> rfl
  | succ more ih =>
      cases n with
      | zero => rfl
      | succ n =>
          rw [directories, List.getElem?_cons_succ, above?_succ]
          cases Path.parent? start with
          | none => simp
          | some parent =>
              rw [Option.elim_some, ih, Option.bind_some]
              simp only [Nat.add_le_add_iff_right]

theorem mem_directories_iff :
    directory ∈ directories 3 start ↔ ∃ n ≤ 3, Path.above? n start = some directory := by
  rw [List.mem_iff_getElem?]
  constructor
  · rintro ⟨n, hn⟩
    rw [getElem?_directories] at hn
    split at hn
    next hle => exact ⟨n, hle, hn⟩
    next => cases hn
  · rintro ⟨n, hle, habove⟩
    exact ⟨n, by rw [getElem?_directories, if_pos hle, habove]⟩

/-- The search settles on the nearest file. -/
theorem find?_eq_some_iff :
    find? fs start = some path ↔ ∃ steps directory name,
      Nearest fs start steps directory name ∧ Path.join directory name = path := by
  rw [find?, List.findSome?_eq_some_iff]
  constructor
  · rintro ⟨front, directory, back, hsplit, hhit, hmiss⟩
    obtain ⟨name, hname, rfl, hfile, hpreferred⟩ := fileIn?_eq_some_iff.1 hhit
    have hat : (directories 3 start)[front.length]? = some directory := by
      rw [hsplit, List.getElem?_append_right (Nat.le_refl _), Nat.sub_self]
      rfl
    rw [getElem?_directories] at hat
    split at hat
    next hle =>
      refine ⟨front.length, directory, name, ⟨hle, hat, hname, hfile, ?_, hpreferred⟩, rfl⟩
      intro n hn d habove
      -- What stands in front of the hit are the directories with fewer steps to them.
      have hfront : front[n]? = some d := by
        rw [← List.getElem?_append_left hn, ← hsplit, getElem?_directories,
          if_pos (Nat.le_trans (Nat.le_of_lt hn) hle), habove]
      exact fileIn?_eq_none_iff.1 (hmiss d (List.mem_of_getElem? hfront))
    next => cases hat
  · rintro ⟨steps, directory, name, h, rfl⟩
    have hat : (directories 3 start)[steps]? = some directory := by
      rw [getElem?_directories, if_pos h.within, h.above]
    obtain ⟨hlt, hget⟩ := List.getElem?_eq_some_iff.1 hat
    refine ⟨(directories 3 start).take steps, directory, (directories 3 start).drop (steps + 1),
      ?_, fileIn?_eq_some_iff.2 ⟨name, h.isName, rfl, h.isFile, h.preferred⟩, ?_⟩
    · rw [← hget, ← List.drop_eq_getElem_cons hlt, List.take_append_drop]
    · intro d hd
      obtain ⟨n, hn⟩ := List.mem_iff_getElem?.1 hd
      rw [List.getElem?_take, getElem?_directories] at hn
      split at hn
      next hlt =>
        split at hn
        next => exact fileIn?_eq_none_iff.2 (h.nearer n hlt d hn)
        next => cases hn
      next => cases hn

theorem find?_eq_none_iff :
    find? fs start = none ↔ ∀ n ≤ 3, ∀ d, Path.above? n start = some d →
      ∀ name ∈ fileNames, fs.isFile (Path.join d name) = false := by
  rw [find?, List.findSome?_eq_none_iff]
  constructor
  · intro h n hn d habove
    exact fileIn?_eq_none_iff.1 (h d (mem_directories_iff.2 ⟨n, hn, habove⟩))
  · intro h d hd
    obtain ⟨n, hn, habove⟩ := mem_directories_iff.1 hd
    exact fileIn?_eq_none_iff.2 (h n hn d habove)

theorem Nearest.load_eq {name : String} (h : Nearest fs start steps directory name) :
    load fs start = loadFile fs (Path.join directory name) := by
  rw [load, find?_eq_some_iff.2 ⟨steps, directory, name, h, rfl⟩]

/-- There is a nearest file if there is any. -/
theorem exists_nearest_iff :
    (∃ steps directory name, Nearest fs start steps directory name) ↔
      ∃ n ≤ 3, ∃ d, Path.above? n start = some d ∧
        ∃ name ∈ fileNames, fs.isFile (Path.join d name) = true := by
  constructor
  · rintro ⟨steps, directory, name, h⟩
    exact ⟨steps, h.within, directory, h.above, name, h.isName, h.isFile⟩
  · rintro ⟨n, hn, d, habove, name, hname, hfile⟩
    cases hfind : find? fs start with
    | none =>
        rw [find?_eq_none_iff.1 hfind n hn d habove name hname] at hfile
        cases hfile
    | some path =>
        obtain ⟨steps, directory, name', h, -⟩ := find?_eq_some_iff.1 hfind
        exact ⟨steps, directory, name', h⟩

/-- Where some of the directories has a configuration file, the nearest one decides, also when it
cannot be read or its content is faulty; whatever there is besides, the table or the error is the
same. Otherwise the table is empty. -/
theorem nearest_file_decides (fs : FileSystem) (start : String) :
    ((∃ steps directory name, Nearest fs start steps directory name) ↔
      ∃ n ≤ 3, ∃ d, Path.above? n start = some d ∧
        ∃ name ∈ fileNames, fs.isFile (Path.join d name) = true) ∧
    (∀ steps directory name, Nearest fs start steps directory name →
      load fs start = loadFile fs (Path.join directory name) ∧
      (∀ cause, fs.readText (Path.join directory name) = .error cause →
        load fs start = .error (.unreadable cause)) ∧
      (∀ content, fs.readText (Path.join directory name) = .ok content →
        load fs start = parse content) ∧
      ∀ fs' : FileSystem, Nearest fs' start steps directory name →
        fs'.readText (Path.join directory name) = fs.readText (Path.join directory name) →
        load fs' start = load fs start) ∧
    ((¬ ∃ steps directory name, Nearest fs start steps directory name) →
      load fs start = .ok .empty) := by
  refine ⟨exists_nearest_iff, ?_, ?_⟩
  · intro steps directory name h
    refine ⟨h.load_eq, ?_, ?_, ?_⟩
    · intro cause hcause
      rw [h.load_eq, loadFile, hcause]
    · intro content hcontent
      rw [h.load_eq, loadFile, hcontent]
    · intro fs' h' hsame
      rw [h.load_eq, h'.load_eq, loadFile, loadFile, hsame]
  · intro hnone
    have hfind : find? fs start = none := by
      refine Option.eq_none_iff_forall_ne_some.2 fun path hpath => hnone ?_
      obtain ⟨steps, directory, name, h, -⟩ := find?_eq_some_iff.1 hpath
      exact ⟨steps, directory, name, h⟩
    rw [load, hfind]

/-- The nearest file is two steps up and no JSON. Neither the good files farther up and beside it
nor the directory on the way that has the preferred name change that; from three directories further
down it is out of reach. -/
theorem nearest_file_decides_malformed :
    let good := "\x7b\"dev\": \x7b\x7d\x7d".toUTF8
    let fs := [([".http-client-env.json"], .file good), (["a"], .directory),
      (["a", ".http-client-env.json"], .file "none".toUTF8),
      (["a", "http-client.env.json"], .file good), (["a", "b"], .directory),
      (["a", "b", ".http-client-env.json"], .directory), (["a", "b", "c"], .directory)].foldl
        (fun fs e => fs.set e.1 e.2) (FileSystem.empty [])
    Nearest fs "a/b/c" 2 "a" ".http-client-env.json" ∧ load fs "a/b/c" = .error .notJson ∧
    (¬ ∃ steps directory name, Nearest fs "a/b/c/d/e" steps directory name) ∧
    load fs "a/b/c/d/e" = .ok .empty := by
  intro good fs
  have hnearer : ∀ n < 2, (Path.above? n "a/b/c").all (fun d =>
      fileNames.all fun other => !fs.isFile (Path.join d other)) = true := by decide +kernel
  have hnearest : Nearest fs "a/b/c" 2 "a" ".http-client-env.json" := by
    refine ⟨by decide, by decide +kernel, by decide, by decide +kernel, ?_, .inl rfl⟩
    intro n hn d hd other hother
    have hall := hnearer n hn
    rw [hd, Option.all_some] at hall
    simpa using List.all_eq_true.1 hall other hother
  have hnone : ¬ ∃ steps directory name, Nearest fs "a/b/c/d/e" steps directory name := by
    have hfind : find? fs "a/b/c/d/e" = none := by decide +kernel
    rintro ⟨steps, directory, name, h⟩
    have hsome := find?_eq_some_iff.2 ⟨steps, directory, name, h, rfl⟩
    rw [hfind] at hsome
    cases hsome
  have hread : fs.readText (Path.join "a" ".http-client-env.json") = .ok "none" :=
    eq_ok_of_toOption (by decide +kernel)
  obtain ⟨-, hdecides, -⟩ := nearest_file_decides fs "a/b/c"
  obtain ⟨-, -, hempty⟩ := nearest_file_decides fs "a/b/c/d/e"
  refine ⟨hnearest, ?_, hnone, hempty hnone⟩
  have hparse : Json.parseValue? "none" = none := by decide +kernel
  rw [(hdecides _ _ _ hnearest).2.2.1 "none" hread, parse, hparse]

end Configuration

end Stencil
