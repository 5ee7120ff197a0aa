/-!
# File trees

The files and directories below a working directory, as a value. A `Tree` maps the names on the
way to an entry to the entry, which is a directory or the bytes of a file; the working directory
itself is always there.

Paths are texts with components separated by slashes. A path is walked from the working directory,
or from the root if it begins with a slash; the tree knows nothing of the root but that it is there
and what is put below it. Every component but the last has to be an existing directory, `.` stays
and `..` goes back; a path that ends in a slash or in `.` names no file. An
operation fails with `FileError.notFound` when something on the way is missing, and with
`FileError.unusable` when something is in the way, such as a file where a directory is needed, and
when a path is too long or contains a zero character.

## Main definitions

* `Tree`, `Tree.find?`, `Tree.resolve`,
* `Tree.read`, `Tree.write`, `Tree.append`, `Tree.rename`, `Tree.createDirectory`,
  `Tree.createDirectories`, `Tree.remove`.
-/

namespace RaceIngest.Files

/-- What a file or directory is. -/
inductive Entry where
  | file (bytes : List UInt8)
  | directory
  deriving DecidableEq, Repr

/-- Why a file operation failed. -/
inductive FileError where
  | notFound
  | unusable
  deriving DecidableEq, Repr

/-- A place in a tree: the names on the way to it. -/
abbrev Location := List String

/-- The files and directories below a working directory. -/
structure Tree where
  entries : List (Location × Entry)
  deriving DecidableEq, Repr

/-- Two names of directories or files put together into a path: a slash is added unless the first
already ends in one or is empty. -/
def joinPath (directory name : String) : String :=
  if directory.isEmpty then name
  else if directory.toList.getLast? = some '/' then directory ++ name
  else directory ++ "/" ++ name

/-- The component that stands for the root at the start of a path. -/
def root : String := "/"

/-- The components of a path. -/
def components (path : String) : List String :=
  let names := ((path.toList.splitOn '/').map String.ofList).filter fun component =>
    component != "" && component != "."
  if path.toList.head? = some '/' then root :: names else names

/-- Whether a path cannot name a file. -/
def namesNoFile (path : String) : Bool :=
  match path.toList.reverse with
  | '/' :: _ | '.' :: '/' :: _ => true
  | _ => false

/-- The greatest number of bytes of a name. -/
def maxNameBytes : Nat := 255

/-- Whether a file system can hold a name. -/
def isUsableName (name : String) : Bool := decide (name.utf8ByteSize ≤ maxNameBytes)

/-- The greatest number of bytes of a path. -/
def maxPathBytes : Nat := 4095

/-- Whether a file system looks at a path at all. -/
def isUsablePath (path : String) : Bool :=
  decide (path.utf8ByteSize ≤ maxPathBytes) && !path.toList.contains '\x00'

namespace Tree

/-- Nothing but the working directory and the root. -/
def empty : Tree := ⟨[]⟩

/-- The entry at a place. -/
def find? (tree : Tree) (location : Location) : Option Entry :=
  if location = [] ∨ location = [root] then some .directory else tree.entries.lookup location

/-- The place of the directory around a place. -/
def outside (location : Location) : Location :=
  if location = [root] then location else location.dropLast

/-- The tree with an entry put at a place other than the working directory and the root. -/
def put (tree : Tree) (location : Location) (entry : Entry) : Tree :=
  ⟨(location, entry) :: tree.entries.filter fun (place, _) => place != location⟩

/-- The tree without the entry at a place. -/
def drop (tree : Tree) (location : Location) : Tree :=
  ⟨tree.entries.filter fun (place, _) => place != location⟩

theorem find?_put_self (tree : Tree) {location : Location} (hinside : location ≠ [])
    (hbelow : location ≠ [root]) (entry : Entry) :
    (tree.put location entry).find? location = some entry := by
  simp [find?, put, hinside, hbelow]

/-- Walks from a place along components, each of which starts in an existing directory. -/
def walk (tree : Tree) (location : Location) : List String → Except FileError Location
  | [] => .ok location
  | component :: rest =>
    match tree.find? location with
    | none => .error .notFound
    | some (.file _) => .error .unusable
    | some .directory =>
      if component = root then walk tree [root] rest
      else if component = ".." then walk tree (outside location) rest
      else if isUsableName component then walk tree (location ++ [component]) rest
      else .error .unusable

/-- The place that a path names. The entry there need not exist. -/
def resolve (tree : Tree) (path : String) : Except FileError Location := do
  if !isUsablePath path then throw .unusable
  let location ← tree.walk [] (components path)
  match namesNoFile path, tree.find? location with
  | true, some (.file _) => .error .unusable
  | _, _ => .ok location

/-- Whether a path names an existing directory. -/
def isDirectory (tree : Tree) (path : List String) : Bool :=
  match tree.walk [] path with
  | .ok location => tree.find? location == some .directory
  | .error _ => false

/-- The bytes of a file. -/
def read (tree : Tree) (path : String) : Except FileError (List UInt8) := do
  let location ← tree.resolve path
  match tree.find? location with
  | some (.file bytes) => .ok bytes
  | some .directory => .error .unusable
  | none => .error .notFound

/-- Writes a file, replacing what it held. -/
def write (tree : Tree) (path : String) (bytes : List UInt8) : Except FileError Tree := do
  let location ← tree.resolve path
  match tree.find? location with
  | some .directory => .error .unusable
  | _ => .ok (tree.put location (.file bytes))

/-- Adds bytes at the end of a file, which is created if it is missing. -/
def append (tree : Tree) (path : String) (bytes : List UInt8) : Except FileError Tree := do
  let location ← tree.resolve path
  match tree.find? location with
  | some .directory => .error .unusable
  | some (.file before) => .ok (tree.put location (.file (before ++ bytes)))
  | none => .ok (tree.put location (.file bytes))

/-- Moves a file over another. -/
def rename (tree : Tree) (source target : String) : Except FileError Tree := do
  let old ← tree.resolve source
  let new ← tree.resolve target
  match tree.find? old, tree.find? new with
  | none, _ => .error .notFound
  | some (.file _), some .directory => .error .unusable
  | some (.file bytes), _ => .ok ((tree.drop old).put new (.file bytes))
  | some .directory, _ => .error .unusable

/-- Creates a directory in an existing one. -/
def createDirectory (tree : Tree) (path : List String) : Except FileError Tree := do
  let location ← tree.walk [] path
  match tree.find? location with
  | some _ => .error .unusable
  | none => .ok (tree.put location .directory)

/-- Creates the directory that a path in reverse names, after creating the one it lies in when
that is missing. -/
def createReversed (tree : Tree) : List String → Except FileError Unit × Tree
  | [] => (.ok (), tree)
  | name :: parent =>
    let path := (name :: parent).reverse
    match tree.createDirectory path with
    | .ok tree => (.ok (), tree)
    | .error .unusable => (if tree.isDirectory path then .ok () else .error .unusable, tree)
    | .error .notFound =>
      match tree.createReversed parent with
      | (.error failure, tree) => (.error failure, tree)
      | (.ok (), tree) =>
        match tree.createDirectory path with
        | .ok tree => (.ok (), tree)
        | .error failure => (if tree.isDirectory path then .ok () else .error failure, tree)

/-- Creates a directory and all those on the way to it. -/
def createDirectories (tree : Tree) (path : String) : Except FileError Unit × Tree :=
  if isUsablePath path then tree.createReversed (components path).reverse
  else (.error .unusable, tree)

/-- The tree without the entry that a path names and everything below it. -/
def remove (tree : Tree) (path : String) : Except FileError Tree := do
  let location ← tree.resolve path
  match tree.find? location with
  | none => .error .notFound
  | some _ => .ok ⟨tree.entries.filter fun (place, _) => !location.isPrefixOf place⟩

end Tree

end RaceIngest.Files
