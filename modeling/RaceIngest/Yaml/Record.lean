import RaceIngest.Yaml.Meaning

/-!
# Records in YAML

Records are read from mappings by the names of their fields. Fields of other names are skipped,
with all that is in them; a field may not be given twice. A blank in place of a record has no
fields.

Where a field says what it has to be, scalars are read by their text and not by their meaning: any
scalar is a text, and an integer is a plain scalar that writes one.
-/

namespace RaceIngest.Yaml.Document

-- Powers are those of the core library, also where algebra is imported.
attribute [local instance (high)] instPowNat

/-- Reads a text: any scalar. -/
def text (d : Document) (node : Node) : Following String := do
  match ← d.follow node with
  | .scalar _ s _ => return s
  | _ => failure

/-- Reads a natural number below `2 ^ 64`: a plain scalar, or a literal block with the tag of
integers. -/
def natural (d : Document) (node : Node) : Following Nat := do
  match ← d.follow node with
  | .scalar p s style =>
    guard (style = .plain || style = .literal && p.tag == some (standardTag "int"))
    unsigned? (2 ^ (64 : Nat)) s.toList
  | _ => failure

/-- The entries of a record. -/
def entries (d : Document) (node : Node) : Following (List (Node × Node)) := do
  match ← d.follow node with
  | .mapping _ entries => return entries
  | .scalar _ s style =>
    guard (s.isEmpty && style = .plain)
    return []
  | _ => failure

/-- The fields of a record that have one of the given names. -/
def fields (d : Document) (names : List String) (node : Node) : Following (List (String × Node)) :=
  do
  (← d.entries node).foldlM (fun found (key, value) => do
    let name ← d.text key
    if names.contains name then
      guard (found.lookup name).isNone
      return (name, value) :: found
    else return found) []

/-- Reads a field that has a default. -/
def withDefault {α : Type} (found : List (String × Node)) (name : String) (default : α)
    (read : Node → Following α) : Following α :=
  match found.lookup name with
  | some node => read node
  | none => return default

end RaceIngest.Yaml.Document
