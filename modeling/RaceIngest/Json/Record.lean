import RaceIngest.Json.Reader

/-!
# Records in JSON documents

A record is written as an object with a member per field. It is read from an object, whose members
may come in any order and whose unknown members are skipped, or from an array of its fields in
their order. A field that is given twice makes the record unreadable.

`Json.fields?` finds the fields of a record; what a missing field means is decided by the reader
of the record. The functions below it read single fields.
-/

namespace RaceIngest.Json

open Decimal

-- Powers are those of the core library, also where algebra is imported.
attribute [local instance (high)] instPowNat

/-- The fields of a record that were given. -/
abbrev Fields := String → Option Json

/-- The members of an object by name; none of them may lack a name that denotes a text. -/
def namedMembers? (members : List (Option String × Json)) : Option (List (String × Json)) :=
  members.mapM fun (key, value) => key.map (·, value)

/-- How often a name occurs among members. -/
def occurrences (name : String) (members : List (String × Json)) : Nat :=
  members.countP fun (key, _) => key == name

/-- The fields with the given names among the members of an object. -/
def objectFields? (names : List String) (members : List (Option String × Json)) :
    Option Fields := do
  let named ← namedMembers? members
  guard (names.all fun name => decide (occurrences name named ≤ 1))
  some fun name => List.lookup name named

/-- The fields of a record given as an object, or as an array of all fields in their order. -/
def fields? (names : List String) : Json → Option Fields
  | .object members => objectFields? names members
  | .array items => if items.length = names.length then
    some fun name => List.lookup name (names.zip items)
    else none
  | _ => none

/-- The fields of a record given as an object, or as an array of its first fields. -/
def leadingFields? (names : List String) : Json → Option Fields
  | .object members => objectFields? names members
  | .array items => if items.length ≤ names.length then
    some fun name => List.lookup name (names.zip items)
    else none
  | _ => none

/-- A field that has to be there. -/
def Fields.required {α : Type} (fields : Fields) (name : String) (read : Json → Option α) :
    Option α :=
  (fields name).bind read

/-- A field that stands for a default when it is missing. -/
def Fields.withDefault {α : Type} (fields : Fields) (name : String) (default : α)
    (read : Json → Option α) : Option α :=
  match fields name with
  | some value => read value
  | none => some default

/-- A field that may be missing or null. -/
def Fields.optional {α : Type} (fields : Fields) (name : String) (read : Json → Option α) :
    Option (Option α) :=
  match fields name with
  | none | some .null => some none
  | some value => (read value).map some

/-! ## Single values -/

/-- Reads a truth value. -/
def toBool? : Json → Option Bool
  | .bool b => some b
  | _ => none

/-- Reads a text. -/
def toText? : Json → Option String
  | .string text => text
  | _ => none

/-- Reads a natural number below a bound. -/
def toNatBelow? (bound : Nat) : Json → Option Nat
  | .number literal => literal.toNatBelow? bound
  | _ => none

/-- Reads a signed integer of some width. -/
def toSigned? (width : Nat) : Json → Option Int
  | .number literal => literal.toSigned? width
  | _ => none

/-- Reads an unsigned byte. -/
def toUInt8? (j : Json) : Option UInt8 := (j.toNatBelow? (2 ^ (8 : Nat))).map UInt8.ofNat

/-- Reads an unsigned 16-bit number. -/
def toUInt16? (j : Json) : Option UInt16 := (j.toNatBelow? (2 ^ (16 : Nat))).map UInt16.ofNat

/-- Reads an unsigned 32-bit number. -/
def toUInt32? (j : Json) : Option UInt32 := (j.toNatBelow? (2 ^ (32 : Nat))).map UInt32.ofNat

/-- Reads a signed byte. -/
def toInt8? (j : Json) : Option Int8 := (j.toSigned? 8).map Int8.ofInt

/-- Reads a signed 32-bit number. -/
def toInt32? (j : Json) : Option Int32 := (j.toSigned? 32).map Int32.ofInt

/-- Reads a 32-bit word. -/
def toSingle? : Json → Option Single
  | .number literal => literal.toSingle?
  | _ => none

end RaceIngest.Json
