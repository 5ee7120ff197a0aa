import RaceIngest.Files.Tree

/-!
# Files that are written, directories that stay

A path is walked through directories, so the place it names depends on nothing but the directories
of a tree. Writing and moving files takes no directory away: the paths that could be walked before
lead to the same places afterwards, and what was written or moved to a path is read from it.
Creating a directory that exists changes nothing.

## Main statements

* `Tree.Keeps`: one tree has the directories of another,
* `Tree.walk_of_keeps`, `Tree.resolve_of_keeps`: paths lead to the same places,
* `Tree.read_write`, `Tree.read_rename`: what is read afterwards,
* `Tree.createDirectories_again`: directories that were created are there.
-/

namespace RaceIngest.Files

/-! ## Paths -/

theorem toList_joinPath (directory name : String) :
    ∃ front, (joinPath directory name).toList = front ++ name.toList := by
  unfold joinPath
  split
  · exact ⟨[], rfl⟩
  split
  · exact ⟨directory.toList, by simp⟩
  · exact ⟨(directory ++ "/").toList, by simp⟩

/-- A path whose last character is part of a name can name a file. -/
theorem namesNoFile_joinPath (directory : String) {name : String} {c : Char}
    (hlast : name.toList.getLast? = some c) (hslash : c ≠ '/') (hdot : c ≠ '.') :
    namesNoFile (joinPath directory name) = false := by
  obtain ⟨front, hpath⟩ := toList_joinPath directory name
  obtain ⟨before, hshape⟩ := List.getLast?_eq_some_iff.mp hlast
  have hreversed : (joinPath directory name).toList.reverse =
      c :: (before.reverse ++ front.reverse) := by
    rw [hpath, hshape]
    simp
  unfold namesNoFile
  rw [hreversed]
  split
  · rename_i hsame
    exact absurd (List.cons.inj hsame).1 hslash
  · rename_i hsame
    exact absurd (List.cons.inj hsame).1 hdot
  · rfl

namespace Tree

variable {tree later : Tree} {location : Location} {path : String} {bytes : List UInt8}

/-! ## Entries -/

theorem lookup_filter_self (entries : List (Location × Entry)) (location : Location) :
    (entries.filter fun (place, _) => place != location).lookup location = none := by
  rw [List.lookup_eq_none_iff]
  rintro ⟨place, entry⟩ hmem
  have hother : (place != location) = true := (List.mem_filter.mp hmem).2
  have hdistinct : place ≠ location := by simpa using hother
  simpa using hdistinct.symm

theorem lookup_filter_of_ne {location other : Location} (hdifferent : other ≠ location)
    (entries : List (Location × Entry)) :
    (entries.filter fun (place, _) => place != location).lookup other = entries.lookup other := by
  induction entries with
  | nil => rfl
  | cons entry entries ih =>
      obtain ⟨place, found⟩ := entry
      by_cases hsame : place = location
      · have hdistinct : (other == place) = false := by simpa [hsame] using hdifferent
        rw [List.filter_cons_of_neg (by simpa using hsame), List.lookup_cons, hdistinct, ih]
      · rw [List.filter_cons_of_pos (by simpa using hsame), List.lookup_cons, List.lookup_cons, ih]

/-- What is no directory lies below the working directory or the root. -/
theorem inside_of_find? (hfile : tree.find? location ≠ some .directory) :
    location ≠ [] ∧ location ≠ [root] := by
  constructor
  · rintro rfl
    exact hfile rfl
  · rintro rfl
    exact hfile rfl

theorem find?_put_of_ne {other : Location} (hdifferent : other ≠ location) (entry : Entry) :
    (tree.put location entry).find? other = tree.find? other := by
  have hdistinct : (other == location) = false := by simpa using hdifferent
  unfold find? put
  simp only [List.lookup_cons, hdistinct, lookup_filter_of_ne hdifferent]

theorem find?_drop_of_ne {other : Location} (hdifferent : other ≠ location) :
    (tree.drop location).find? other = tree.find? other := by
  unfold find? drop
  simp only [lookup_filter_of_ne hdifferent]

theorem find?_drop_self (hfile : tree.find? location ≠ some .directory) :
    (tree.drop location).find? location = none := by
  obtain ⟨hinside, hbelow⟩ := inside_of_find? hfile
  simp [find?, drop, hinside, hbelow, lookup_filter_self]

/-! ## Directories that stay -/

/-- Every directory of the tree is one of the other tree. -/
def Keeps (tree later : Tree) : Prop :=
  ∀ location, tree.find? location = some .directory → later.find? location = some .directory

theorem Keeps.trans {last : Tree} (hfirst : tree.Keeps later) (hsecond : later.Keeps last) :
    tree.Keeps last :=
  fun location hdirectory => hsecond location (hfirst location hdirectory)

theorem keeps_put (hfile : tree.find? location ≠ some .directory) (entry : Entry) :
    tree.Keeps (tree.put location entry) := by
  intro other hdirectory
  by_cases hsame : other = location
  · exact absurd (hsame ▸ hdirectory) hfile
  · rw [find?_put_of_ne hsame, hdirectory]

theorem keeps_drop (hfile : tree.find? location ≠ some .directory) :
    tree.Keeps (tree.drop location) := by
  intro other hdirectory
  by_cases hsame : other = location
  · exact absurd (hsame ▸ hdirectory) hfile
  · rw [find?_drop_of_ne hsame, hdirectory]

/-- A walk goes through directories only. -/
theorem walk_of_keeps (hkeeps : tree.Keeps later) {names : List String} {start : Location}
    (hwalked : tree.walk start names = .ok location) : later.walk start names = .ok location := by
  induction names generalizing start with
  | nil => exact hwalked
  | cons name names ih =>
      rw [walk] at hwalked ⊢
      cases hfound : tree.find? start with
      | none =>
          rw [hfound] at hwalked
          cases hwalked
      | some entry =>
          cases entry with
          | file bytes =>
              rw [hfound] at hwalked
              cases hwalked
          | directory =>
              rw [hfound] at hwalked
              rw [hkeeps start hfound]
              simp only at hwalked ⊢
              split at hwalked
              · rename_i hsame
                rw [if_pos hsame]
                exact ih hwalked
              · rename_i hnotRoot
                rw [if_neg hnotRoot]
                split at hwalked
                · rename_i hsame
                  rw [if_pos hsame]
                  exact ih hwalked
                · rename_i hnotUp
                  rw [if_neg hnotUp]
                  split at hwalked
                  · rename_i husable
                    rw [if_pos husable]
                    exact ih hwalked
                  · cases hwalked

theorem resolve_eq (hplain : namesNoFile path = false) : tree.resolve path =
    if isUsablePath path then tree.walk [] (components path) else .error .unusable := by
  unfold resolve
  cases husable : isUsablePath path with
  | false => rfl
  | true =>
      simp only [hplain, Bool.not_true, Bool.false_eq_true, if_false, if_true]
      cases tree.walk [] (components path) <;> rfl

/-- A path that can name a file names the same place in both trees. -/
theorem resolve_of_keeps (hkeeps : tree.Keeps later) (hplain : namesNoFile path = false)
    (hresolved : tree.resolve path = .ok location) : later.resolve path = .ok location := by
  rw [resolve_eq hplain] at hresolved ⊢
  split at hresolved
  · rename_i husable
    rw [if_pos husable]
    exact walk_of_keeps hkeeps hresolved
  · cases hresolved

theorem isDirectory_of_keeps (hkeeps : tree.Keeps later) {names : List String}
    (hdirectory : tree.isDirectory names = true) : later.isDirectory names = true := by
  unfold isDirectory at hdirectory ⊢
  cases hwalked : tree.walk [] names with
  | error failure =>
      rw [hwalked] at hdirectory
      cases hdirectory
  | ok location =>
      rw [hwalked] at hdirectory
      rw [walk_of_keeps hkeeps hwalked]
      have hfound : tree.find? location = some .directory := by simpa using hdirectory
      simp [hkeeps location hfound]

/-! ## Reading, writing and moving -/

/-- An operation in two steps succeeds if both do. -/
theorem exists_of_bind {α β : Type} {first : Except FileError α} {next : α → Except FileError β} {b : β}
    (hboth : (first >>= next) = .ok b) : ∃ a, first = .ok a ∧ next a = .ok b := by
  cases first with
  | error failure => cases hboth
  | ok a => exact ⟨a, rfl, hboth⟩

/-- What a write does. -/
theorem write_cases (hwritten : tree.write path bytes = .ok later) :
    ∃ location, tree.resolve path = .ok location ∧ tree.find? location ≠ some .directory ∧
      later = tree.put location (.file bytes) := by
  obtain ⟨location, hresolved, hwritten⟩ := exists_of_bind hwritten
  split at hwritten
  · cases hwritten
  · rename_i hfile
    cases hwritten
    exact ⟨location, hresolved, hfile, rfl⟩

/-- What a move does. -/
theorem rename_cases {source target : String} (hmoved : tree.rename source target = .ok later) :
    ∃ old new bytes, tree.resolve source = .ok old ∧ tree.resolve target = .ok new ∧
      tree.find? old = some (.file bytes) ∧ tree.find? new ≠ some .directory ∧
      later = (tree.drop old).put new (.file bytes) := by
  obtain ⟨old, hfrom, hmoved⟩ := exists_of_bind hmoved
  obtain ⟨new, honto, hmoved⟩ := exists_of_bind hmoved
  split at hmoved
  · cases hmoved
  · cases hmoved
  · rename_i bytes hfound hfile
    cases hmoved
    exact ⟨old, new, bytes, hfrom, honto, hfound, hfile, rfl⟩
  · cases hmoved

theorem keeps_of_write (hwritten : tree.write path bytes = .ok later) : tree.Keeps later := by
  obtain ⟨location, -, hfile, rfl⟩ := write_cases hwritten
  exact keeps_put hfile _

theorem keeps_of_rename {source target : String} (hmoved : tree.rename source target = .ok later) :
    tree.Keeps later := by
  obtain ⟨old, new, bytes, -, -, hsource, htarget, rfl⟩ := rename_cases hmoved
  have hfile : tree.find? old ≠ some .directory := by simp [hsource]
  refine (keeps_drop hfile).trans (keeps_put ?_ _)
  by_cases hsame : new = old
  · rw [hsame, find?_drop_self hfile]
    nofun
  · rwa [find?_drop_of_ne hsame]

/-- A path that names the place of a file is read as the file. -/
theorem read_eq (hresolved : tree.resolve path = .ok location)
    (hfound : tree.find? location = some (.file bytes)) : tree.read path = .ok bytes := by
  simp only [read, hresolved, bind, Except.bind, hfound]

/-- **What was written to a path is read from it.** -/
theorem read_write (hwritten : tree.write path bytes = .ok later)
    (hplain : namesNoFile path = false) : later.read path = .ok bytes := by
  have hkeeps := keeps_of_write hwritten
  obtain ⟨location, hresolved, hfile, rfl⟩ := write_cases hwritten
  obtain ⟨hinside, hbelow⟩ := inside_of_find? hfile
  exact read_eq (resolve_of_keeps hkeeps hplain hresolved) (find?_put_self tree hinside hbelow _)

/-- **What was moved to a path is read from it.** -/
theorem read_rename {source target : String} (hmoved : tree.rename source target = .ok later)
    (hshown : tree.read source = .ok bytes) (hplain : namesNoFile target = false) :
    later.read target = .ok bytes := by
  have hkeeps := keeps_of_rename hmoved
  obtain ⟨old, new, contents, hfrom, honto, hfound, hfile, rfl⟩ := rename_cases hmoved
  obtain ⟨hinside, hbelow⟩ := inside_of_find? hfile
  have hsame : bytes = contents := by
    rw [read_eq hfrom hfound] at hshown
    exact (Except.ok.inj hshown).symm
  rw [hsame]
  exact read_eq (resolve_of_keeps hkeeps hplain honto) (find?_put_self _ hinside hbelow _)

/-! ## Creating directories -/

/-- A directory that was created is there. -/
theorem isDirectory_of_createDirectory {names : List String}
    (hcreated : tree.createDirectory names = .ok later) : later.isDirectory names = true := by
  obtain ⟨location, hwalked, hcreated⟩ := exists_of_bind hcreated
  split at hcreated
  · cases hcreated
  · rename_i hmissing
    cases hcreated
    have hfile : tree.find? location ≠ some .directory := by simp [hmissing]
    obtain ⟨hinside, hbelow⟩ := inside_of_find? hfile
    rw [isDirectory, walk_of_keeps (keeps_put hfile .directory) hwalked]
    simp [find?_put_self tree hinside hbelow]

/-- A creation that failed does not matter where the directory is. -/
private theorem isDirectory_of_tolerated {names : List String} {failure : FileError}
    (hcreated : ((if tree.isDirectory names then .ok () else .error failure :
      Except FileError Unit), tree) = (.ok (), later)) : later.isDirectory names = true := by
  obtain ⟨hthere, rfl⟩ := Prod.mk.inj hcreated
  split at hthere
  · assumption
  · cases hthere

/-- The directory that all names lead to is there once it was created with those on the way. -/
theorem isDirectory_of_createReversed {reversed : List String}
    (hcreated : tree.createReversed reversed = (.ok (), later)) :
    later.isDirectory reversed.reverse = true := by
  cases reversed with
  | nil => rfl
  | cons name parent =>
      rw [createReversed] at hcreated
      split at hcreated
      · rename_i hmade
        cases hcreated
        exact isDirectory_of_createDirectory hmade
      · exact isDirectory_of_tolerated hcreated
      · -- The directory around it was missing and is created first.
        split at hcreated
        · cases hcreated
        · split at hcreated
          · rename_i hmade
            cases hcreated
            exact isDirectory_of_createDirectory hmade
          · exact isDirectory_of_tolerated hcreated

/-- Creating a directory that is there changes nothing. -/
theorem createReversed_of_isDirectory {reversed : List String}
    (hdirectory : tree.isDirectory reversed.reverse = true) :
    tree.createReversed reversed = (.ok (), tree) := by
  cases reversed with
  | nil => rfl
  | cons name parent =>
      have hthere := hdirectory
      unfold isDirectory at hthere
      cases hwalked : tree.walk [] (name :: parent).reverse with
      | error failure =>
          rw [hwalked] at hthere
          cases hthere
      | ok location =>
          rw [hwalked] at hthere
          have hfound : tree.find? location = some .directory := by simpa using hthere
          have hoccupied : tree.createDirectory (name :: parent).reverse = .error .unusable := by
            simp only [createDirectory, hwalked, bind, Except.bind, hfound]
          rw [createReversed]
          simp only [hoccupied, hdirectory, if_true]

/-- **Directories that were created once need not be created again** while they are there. -/
theorem createDirectories_again {before : Tree}
    (hcreated : before.createDirectories path = (.ok (), tree))
    (hdirectory : later.isDirectory (components path) = true) :
    later.createDirectories path = (.ok (), later) := by
  unfold createDirectories at hcreated ⊢
  split at hcreated
  · rename_i husable
    rw [if_pos husable]
    exact createReversed_of_isDirectory (by rwa [List.reverse_reverse])
  · cases hcreated

end Tree

end RaceIngest.Files
