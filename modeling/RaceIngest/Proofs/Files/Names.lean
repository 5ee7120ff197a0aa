import RaceIngest.Proofs.Files.Tree

/-!
# Files of different names

A path that is put together from a directory and the name of a file leads to an entry of that name,
in whatever tree it is walked. So files of different names lie at different places: what is written
to one, added to it or moved onto it leaves alone what is read from the other, as long as the
directory of the other is there.

## Main statements

* `components_joinPath`: the components of such a path,
* `Tree.read_write_of_ne`, `Tree.read_append_of_ne`, `Tree.read_rename_of_ne`: other files,
* `Tree.read_append`: the file that something was added to.
-/

namespace RaceIngest.Files

/-! ## Paths of files -/

/-- A name that can end the path of a file: a single component that is no step in place or back. -/
structure IsFileName (name : String) : Prop where
  noSlash : '/' ∉ name.toList
  last : ∃ c, name.toList.getLast? = some c ∧ c ≠ '.'

namespace IsFileName

variable {name : String}

theorem ne_of_dot (hfileName : IsFileName name) : name ≠ "" ∧ name ≠ "." ∧ name ≠ ".." := by
  obtain ⟨c, hlast, hdot⟩ := hfileName.last
  refine ⟨?_, ?_, ?_⟩
  · rintro rfl
    simp at hlast
  · rintro rfl
    exact hdot (by simpa using hlast.symm)
  · rintro rfl
    exact hdot (by simpa using hlast.symm)

theorem ne_root (hfileName : IsFileName name) : name ≠ root := by
  rintro rfl
  exact hfileName.noSlash (by decide)

theorem namesNoFile (hfileName : IsFileName name) (directory : String) :
    namesNoFile (joinPath directory name) = false := by
  obtain ⟨c, hlast, hdot⟩ := hfileName.last
  refine namesNoFile_joinPath directory hlast ?_ hdot
  rintro rfl
  exact hfileName.noSlash (List.mem_of_getLast? hlast)

end IsFileName

/-- The components among the parts of a path between its slashes. -/
def namesOf (parts : List (List Char)) : List String :=
  (parts.map String.ofList).filter fun component => component != "" && component != "."

theorem components_eq (path : String) : components path =
    if path.toList.head? = some '/' then root :: namesOf (path.toList.splitOn '/')
    else namesOf (path.toList.splitOn '/') := rfl

theorem namesOf_append (first second : List (List Char)) :
    namesOf (first ++ second) = namesOf first ++ namesOf second := by
  simp [namesOf]

theorem namesOf_name {name : String} (hfileName : IsFileName name) :
    namesOf (name.toList.splitOn '/') = [name] := by
  obtain ⟨hempty, hdot, -⟩ := hfileName.ne_of_dot
  rw [List.splitOn_eq_singleton hfileName.noSlash]
  simp [namesOf, hempty, hdot]

/-- **The components of the path of a file** are those of its directory and its name. -/
theorem components_joinPath (directory : String) {name : String} (hfileName : IsFileName name) :
    components (joinPath directory name) = components directory ++ [name] := by
  have hrelative : name.toList.head? ≠ some '/' := by
    intro hfirst
    exact hfileName.noSlash (List.mem_of_head? hfirst)
  -- What stands before the name gives the components of the directory and begins like it.
  have hsplit (front : List Char) (path : String)
      (hshape : path.toList = front ++ '/' :: name.toList)
      (hfirst : path.toList.head? = directory.toList.head?)
      (hparts : namesOf (front.splitOn '/') = namesOf (directory.toList.splitOn '/')) :
      components path = components directory ++ [name] := by
    have hnames : namesOf (path.toList.splitOn '/') =
        namesOf (directory.toList.splitOn '/') ++ [name] := by
      rw [hshape, List.splitOn_append_cons_self, namesOf_append, namesOf_name hfileName, hparts]
    rw [components_eq, components_eq, hfirst, hnames]
    split <;> rfl
  unfold joinPath
  by_cases hempty : directory.isEmpty = true
  · have hnone : directory = "" := String.isEmpty_iff.mp hempty
    have hnothing : components "" = [] := by decide
    rw [if_pos hempty, hnone, hnothing, components_eq, if_neg hrelative, namesOf_name hfileName]
    rfl
  · have hinside : directory.toList ≠ [] := by
      intro hnone
      exact hempty (String.isEmpty_iff.mpr (String.toList_eq_nil_iff.mp hnone))
    obtain ⟨c, rest, hchars⟩ := List.exists_cons_of_ne_nil hinside
    rw [if_neg hempty]
    by_cases hslash : directory.toList.getLast? = some '/'
    · rw [if_pos hslash]
      obtain ⟨front, hshape⟩ := List.getLast?_eq_some_iff.mp hslash
      apply hsplit front
      · simp [hshape]
      · simp [hchars]
      · rw [hshape, List.splitOn_append_cons_self, namesOf_append]
        simp [namesOf]
    · rw [if_neg hslash]
      apply hsplit directory.toList
      · simp
      · simp [hchars]
      · rfl

namespace Tree

variable {tree later : Tree} {location : Location} {directory name other : String}
  {bytes : List UInt8}

/-! ## Where a path leads -/

theorem walk_append (tree : Tree) (start : Location) (first second : List String) :
    tree.walk start (first ++ second) = (tree.walk start first).bind (tree.walk · second) := by
  induction first generalizing start with
  | nil => rfl
  | cons component rest ih =>
      rw [List.cons_append, walk, walk]
      cases tree.find? start with
      | none => rfl
      | some entry =>
          cases entry with
          | file bytes => rfl
          | directory =>
              simp only
              split
              · exact ih _
              split
              · exact ih _
              split
              · exact ih _
              · rfl

/-- In a directory a name leads to the entry of the name. -/
theorem walk_name (hfileName : IsFileName name) (hfound : tree.find? location = some .directory) :
    tree.walk location [name] =
      if isUsableName name then .ok (location ++ [name]) else .error .unusable := by
  simp only [walk, hfound, if_neg hfileName.ne_root, if_neg hfileName.ne_of_dot.2.2]

theorem walk_name_eq_ok {start : Location} (hfileName : IsFileName name)
    (hwalked : tree.walk start [name] = .ok location) :
    tree.find? start = some .directory ∧ location = start ++ [name] := by
  cases hfound : tree.find? start with
  | none =>
      rw [walk, hfound] at hwalked
      cases hwalked
  | some entry =>
      cases entry with
      | file bytes =>
          rw [walk, hfound] at hwalked
          cases hwalked
      | directory =>
          rw [walk_name hfileName hfound] at hwalked
          split at hwalked
          · cases hwalked
            exact ⟨rfl, rfl⟩
          · cases hwalked

theorem resolve_joinPath (hfileName : IsFileName name) :
    tree.resolve (joinPath directory name) =
      if isUsablePath (joinPath directory name) then
        (tree.walk [] (components directory)).bind (tree.walk · [name])
      else .error .unusable := by
  rw [resolve_eq (hfileName.namesNoFile directory), components_joinPath directory hfileName,
    walk_append]

/-- **The path of a file leads to an entry of its name.** -/
theorem exists_of_resolve (hfileName : IsFileName name)
    (hresolved : tree.resolve (joinPath directory name) = .ok location) :
    ∃ around, location = around ++ [name] := by
  rw [resolve_joinPath hfileName] at hresolved
  split at hresolved
  · cases hwalked : tree.walk [] (components directory) with
    | error failure =>
        rw [hwalked] at hresolved
        cases hresolved
    | ok around =>
        rw [hwalked] at hresolved
        exact ⟨around, (walk_name_eq_ok hfileName hresolved).2⟩
  · cases hresolved

theorem isDirectory_iff {names : List String} : tree.isDirectory names = true ↔
    ∃ location, tree.walk [] names = .ok location ∧ tree.find? location = some .directory := by
  unfold isDirectory
  cases tree.walk [] names <;> simp

/-- A directory lies in a directory. -/
theorem isDirectory_of_joinPath (hfileName : IsFileName name)
    (hinside : tree.isDirectory (components (joinPath directory name)) = true) :
    tree.isDirectory (components directory) = true := by
  obtain ⟨location, hwalked, -⟩ := isDirectory_iff.mp hinside
  rw [components_joinPath directory hfileName, walk_append] at hwalked
  cases haround : tree.walk [] (components directory) with
  | error failure =>
      rw [haround] at hwalked
      cases hwalked
  | ok start =>
      rw [haround] at hwalked
      exact isDirectory_iff.mpr ⟨start, haround, (walk_name_eq_ok hfileName hwalked).1⟩

/-- The path of a file in a directory leads to the same place as long as the directory is there. -/
theorem resolve_joinPath_of_keeps (hkeeps : tree.Keeps later)
    (hthere : tree.isDirectory (components directory) = true) (hfileName : IsFileName name) :
    later.resolve (joinPath directory name) = tree.resolve (joinPath directory name) := by
  obtain ⟨around, hwalked, hfound⟩ := isDirectory_iff.mp hthere
  rw [resolve_joinPath hfileName, resolve_joinPath hfileName, walk_of_keeps hkeeps hwalked, hwalked]
  show (if _ then later.walk around [name] else _) = if _ then tree.walk around [name] else _
  rw [walk_name hfileName hfound, walk_name hfileName (hkeeps around hfound)]

/-- What is read is a file of the tree. -/
theorem exists_of_read {path : String} (hshown : tree.read path = .ok bytes) :
    ∃ location, tree.find? location = some (.file bytes) := by
  obtain ⟨location, -, hshown⟩ := exists_of_bind hshown
  split at hshown
  · rename_i hfound
    cases hshown
    exact ⟨location, hfound⟩
  · cases hshown
  · cases hshown

/-! ## Files that are left alone -/

/-- A file is read as before when nothing happened to the entries of its name. -/
theorem read_of_keeps (hkeeps : tree.Keeps later)
    (hthere : tree.isDirectory (components directory) = true) (hfileName : IsFileName name)
    (hsame : ∀ around, later.find? (around ++ [name]) = tree.find? (around ++ [name])) :
    later.read (joinPath directory name) = tree.read (joinPath directory name) := by
  unfold read
  rw [resolve_joinPath_of_keeps hkeeps hthere hfileName]
  cases hresolved : tree.resolve (joinPath directory name) with
  | error failure => rfl
  | ok location =>
      obtain ⟨around, rfl⟩ := exists_of_resolve hfileName hresolved
      simp only [bind, Except.bind, hsame around]

theorem concat_ne (hdifferent : name ≠ other) (around beside : Location) :
    around ++ [name] ≠ beside ++ [other] := by
  intro hsame
  exact hdifferent (List.append_inj_right' hsame rfl |> List.singleton_inj.mp)

/-- What is put at the place of another name is not seen. -/
theorem find?_put_concat (hdifferent : name ≠ other) (beside : Location) (entry : Entry)
    (around : Location) :
    (tree.put (beside ++ [other]) entry).find? (around ++ [name]) = tree.find? (around ++ [name]) :=
  find?_put_of_ne (concat_ne hdifferent around beside) entry

section Others

variable {elsewhere source target : String}

/-- **What is written to a file leaves files of other names alone.** -/
theorem read_write_of_ne (hthere : tree.isDirectory (components directory) = true)
    (hfileName : IsFileName name) (hotherName : IsFileName other) (hdifferent : name ≠ other)
    (hwritten : tree.write (joinPath elsewhere other) bytes = .ok later) :
    later.read (joinPath directory name) = tree.read (joinPath directory name) := by
  have hkeeps := keeps_of_write hwritten
  obtain ⟨location, hresolved, -, rfl⟩ := write_cases hwritten
  obtain ⟨beside, rfl⟩ := exists_of_resolve hotherName hresolved
  exact read_of_keeps hkeeps hthere hfileName (find?_put_concat hdifferent beside _)

/-- **What is moved leaves alone the files of names other than the old and the new one.** -/
theorem read_rename_of_ne (hthere : tree.isDirectory (components directory) = true)
    (hfileName : IsFileName name) (hsourceName : IsFileName source)
    (htargetName : IsFileName target) (hfromOther : name ≠ source) (hontoOther : name ≠ target)
    (hmoved : tree.rename (joinPath elsewhere source) (joinPath elsewhere target) = .ok later) :
    later.read (joinPath directory name) = tree.read (joinPath directory name) := by
  have hkeeps := keeps_of_rename hmoved
  obtain ⟨old, new, bytes, hfrom, honto, -, -, rfl⟩ := rename_cases hmoved
  obtain ⟨left, rfl⟩ := exists_of_resolve hsourceName hfrom
  obtain ⟨right, rfl⟩ := exists_of_resolve htargetName honto
  apply read_of_keeps hkeeps hthere hfileName
  intro around
  rw [find?_put_concat hontoOther, find?_drop_of_ne (concat_ne hfromOther around left)]

/-! ## Files that something is added to -/

/-- What an addition does. -/
theorem append_cases {path : String} (hadded : tree.append path bytes = .ok later) :
    ∃ location before, tree.resolve path = .ok location ∧
      tree.find? location ≠ some .directory ∧
      (tree.read path = .ok before ∨ tree.read path = .error .notFound ∧ before = []) ∧
      later = tree.put location (.file (before ++ bytes)) := by
  obtain ⟨location, hresolved, hadded⟩ := exists_of_bind hadded
  split at hadded
  · cases hadded
  · rename_i before hfound
    cases hadded
    have hread : tree.read path = .ok before := by
      rw [Tree.read, hresolved]
      simp only [bind, Except.bind, hfound]
    exact ⟨location, before, hresolved, by simp [hfound], .inl hread, rfl⟩
  · rename_i hfound
    cases hadded
    have hread : tree.read path = .error .notFound := by
      rw [Tree.read, hresolved]
      simp only [bind, Except.bind, hfound]
    exact ⟨location, [], hresolved, by simp [hfound], .inr ⟨hread, rfl⟩, rfl⟩

theorem keeps_of_append {path : String} (hadded : tree.append path bytes = .ok later) :
    tree.Keeps later := by
  obtain ⟨location, before, -, hfile, -, rfl⟩ := append_cases hadded
  exact keeps_put hfile _

/-- **What is added to a file is read after what was there.** -/
theorem read_append {path : String} (hadded : tree.append path bytes = .ok later)
    (hplain : namesNoFile path = false) : ∃ before,
      (tree.read path = .ok before ∨ tree.read path = .error .notFound ∧ before = []) ∧
      later.read path = .ok (before ++ bytes) := by
  have hkeeps := keeps_of_append hadded
  obtain ⟨location, before, hresolved, hfile, hshown, rfl⟩ := append_cases hadded
  obtain ⟨hinside, hbelow⟩ := inside_of_find? hfile
  exact ⟨before, hshown,
    read_eq (resolve_of_keeps hkeeps hplain hresolved) (find?_put_self tree hinside hbelow _)⟩

/-- **What is added to a file leaves files of other names alone.** -/
theorem read_append_of_ne (hthere : tree.isDirectory (components directory) = true)
    (hfileName : IsFileName name) (hotherName : IsFileName other) (hdifferent : name ≠ other)
    (hadded : tree.append (joinPath elsewhere other) bytes = .ok later) :
    later.read (joinPath directory name) = tree.read (joinPath directory name) := by
  have hkeeps := keeps_of_append hadded
  obtain ⟨location, before, hresolved, -, -, rfl⟩ := append_cases hadded
  obtain ⟨beside, rfl⟩ := exists_of_resolve hotherName hresolved
  exact read_of_keeps hkeeps hthere hfileName (find?_put_concat hdifferent beside _)

end Others

end Tree

end RaceIngest.Files
