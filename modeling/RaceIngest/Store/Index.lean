import RaceIngest.Race.Basic

/-!
# The index of races

Every store keeps its races in a `RaceIndex`: at most one race per identifier, in ascending order
of the identifiers. Putting a race into the index inserts it when its identifier is new; otherwise
the stored race takes over what may change of it (`Race.mergeMutable`) and keeps its identity, car,
track and start.

## Main definitions

* `RaceIndex`, `RaceIndex.find?`, `RaceIndex.put`, `RaceIndex.putAll`, `RaceIndex.ofList`,
* `RaceIndex.newestFirst`, the races ordered by their start.
-/

namespace RaceIngest

/-- Races in ascending order of their identifiers. -/
structure RaceIndex where
  races : List Race
  deriving DecidableEq, Inhabited

namespace RaceIndex

/-- No races. -/
def empty : RaceIndex := ⟨[]⟩

/-- The race with an identifier. -/
def find? (index : RaceIndex) (id : Uuid) : Option Race := index.races.find? fun race => race.id == id

/-- Puts a race among races in ascending order. A race with the same identifier is combined with
it by `combine`, the stored one first. -/
def insertWith (combine : Race → Race → Race) (race : Race) : List Race → List Race
  | [] => [race]
  | stored :: races =>
    if race.id = stored.id then combine stored race :: races
    else if race.id.toNat < stored.id.toNat then race :: stored :: races
    else stored :: insertWith combine race races

/-- Puts a race into the index: a new one is inserted, a stored one is updated. -/
def put (index : RaceIndex) (race : Race) : RaceIndex :=
  ⟨insertWith Race.mergeMutable race index.races⟩

/-- Puts races into the index one after the other. -/
def putAll (index : RaceIndex) (races : List Race) : RaceIndex := races.foldl put index

/-- The index of some races; of several with one identifier the last counts. -/
def ofList (races : List Race) : RaceIndex :=
  ⟨races.foldl (fun sorted race => insertWith (fun _ last => last) race sorted) []⟩

/-- The races of the index, the most recently started first. -/
def newestFirst (index : RaceIndex) : List Race :=
  index.races.mergeSort fun a b => b.startedAt ≤ a.startedAt

@[simp] theorem putAll_nil (index : RaceIndex) : index.putAll [] = index := rfl

theorem putAll_append (index : RaceIndex) (first second : List Race) :
    index.putAll (first ++ second) = (index.putAll first).putAll second :=
  List.foldl_append

end RaceIndex

end RaceIngest
