import RaceIngest.Store.Basic

/-!
# Stores in memory

A `MemoryStore` keeps races and samples as long as the program runs. None of its writes fails.
-/

namespace RaceIngest

/-- Races, and the samples inserted for every race. -/
structure MemoryStore where
  index : RaceIndex
  recorded : List (Uuid × List Recorded)
  deriving DecidableEq, Inhabited

namespace MemoryStore

/-- Nothing stored. -/
def empty : MemoryStore := ⟨.empty, []⟩

/-- The samples that were inserted for a race. -/
def samplesOf (store : MemoryStore) (id : Uuid) : List Recorded :=
  (store.recorded.lookup id).getD []

/-- Appends samples to those of a race. -/
def appendTo (id : Uuid) (samples : List Recorded) :
    List (Uuid × List Recorded) → List (Uuid × List Recorded)
  | [] => [(id, samples)]
  | (race, before) :: rest =>
    if race = id then (race, before ++ samples) :: rest
    else (race, before) :: appendTo id samples rest

theorem lookup_appendTo_self (id : Uuid) (samples : List Recorded)
    (recorded : List (Uuid × List Recorded)) :
    ((appendTo id samples recorded).lookup id).getD [] =
      (recorded.lookup id).getD [] ++ samples := by
  induction recorded with
  | nil => simp [appendTo]
  | cons entry rest ih =>
      obtain ⟨race, before⟩ := entry
      by_cases hsame : race = id
      · simp [appendTo, hsame]
      · have hother : (id == race) = false := by simpa using Ne.symm hsame
        simp [appendTo, hsame, List.lookup_cons, hother, ih]

theorem lookup_appendTo_of_ne {id other : Uuid} (hdifferent : other ≠ id)
    (samples : List Recorded) (recorded : List (Uuid × List Recorded)) :
    (appendTo id samples recorded).lookup other = recorded.lookup other := by
  have hdistinct : (other == id) = false := by simpa using hdifferent
  induction recorded with
  | nil => simp [appendTo, List.lookup_cons, hdistinct]
  | cons entry rest ih =>
      obtain ⟨race, before⟩ := entry
      by_cases hsame : race = id
      · simp [appendTo, hsame, List.lookup_cons, hdistinct]
      · simp [appendTo, hsame, List.lookup_cons, ih]

/-- How many races are stored. -/
def raceCount (store : MemoryStore) : Nat := store.index.races.length

/-- How many samples are stored. -/
def sampleCount (store : MemoryStore) : Nat :=
  store.recorded.foldl (fun count (_, samples) => count + samples.length) 0

/-- Inserting no samples does not even make the race known. -/
def insert (store : MemoryStore) (race : Race) (samples : List Recorded) : MemoryStore :=
  if samples.isEmpty then store
  else { store with recorded := appendTo race.id samples store.recorded }

instance : Store MemoryStore where
  insertSamples store race samples := (.ok (), store.insert race samples)
  upsertRaces store races := (.ok (), { store with index := store.index.putAll races })
  lastSample store id := lastOf id (store.samplesOf id)
  race? store id := .ok (store.index.find? id)
  races store := .ok store.index.newestFirst
  samples store id := .ok (store.samplesOf id)

end MemoryStore

end RaceIngest
