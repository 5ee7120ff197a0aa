import RaceIngest.Proofs.Race.Identity
import RaceIngest.Proofs.Store.Agreement
import RaceIngest.Proofs.Store.Atomic
import RaceIngest.Store.Backend

/-!
# Updates of the stored races

Every store keeps its races in an index, and an update puts a batch of them into it, one after the
other. What a race is after many batches does not show the batches any more: it is the race as it
first appeared, with the state of its last update.

This is one equation about the index (`RaceIndex.find?_putAll`), by induction from the last race
backwards: one more race either appears for the first time, and then it is also the last, or it
replaces the state that was there (`Race.mergeMutable_mergeMutable`). The first race with an
identifier in a list and the last one are all that the equation reads of the batches, so whatever
leaves those two alone leaves the index alone: cutting the list elsewhere, repeating its end, moving
races past others with other identifiers (`RaceIndex.putAll_congr`).

A store in memory takes every update. A store in a directory takes it if no file fails, and then
holds the same index, so both are covered by `Backend`.

## Main definitions

* `Race.first?`, `Race.last?`: the first and the last race with an identifier.
* `Backend.index`, `Backend.updates`, `Backend.Undisturbed`.

## Main results

* `RaceIndex.find?_putAll`: the races of an index after an update.
* `Backend.ordered_openFrom`, `Backend.ordered_perform`: every store that is used is ordered.
* `Backend.index_updates`: a store after updates that no file disturbed.
* `Backend.updated_to_last_state`: identity of the first appearance, state of the last update.
-/

namespace RaceIngest

/-! ## The first and the last race with an identifier -/

namespace Race

/-- The first race with an identifier. -/
def first? (id : Uuid) (races : List Race) : Option Race := races.find? fun race => race.id == id

/-- The last race with an identifier. -/
def last? (id : Uuid) (races : List Race) : Option Race := first? id races.reverse

variable {id : Uuid}

theorem first?_singleton (id : Uuid) (race : Race) :
    first? id [race] = if id = race.id then some race else none := by
  by_cases hid : id = race.id
  · simp [first?, hid]
  · simp [first?, hid, Ne.symm hid]

@[simp] theorem first?_append (id : Uuid) (races others : List Race) :
    first? id (races ++ others) = (first? id races).or (first? id others) :=
  List.find?_append

@[simp] theorem last?_append (id : Uuid) (races others : List Race) :
    last? id (races ++ others) = (last? id others).or (last? id races) := by
  rw [last?, List.reverse_append, first?_append]
  rfl

theorem last?_singleton (id : Uuid) (race : Race) :
    last? id [race] = if id = race.id then some race else none :=
  first?_singleton id race

theorem first?_eq_none_iff {races : List Race} :
    first? id races = none ↔ ∀ race ∈ races, race.id ≠ id := by
  simp [first?, List.find?_eq_none]

theorem last?_eq_none_iff {races : List Race} :
    last? id races = none ↔ ∀ race ∈ races, race.id ≠ id := by
  simp [last?, first?_eq_none_iff]

/-- A race that has a last appearance has a first one. -/
theorem exists_first?_of_last? {races : List Race} {last : Race} (h : last? id races = some last) :
    ∃ first, first? id races = some first := by
  refine Option.ne_none_iff_exists'.mp ?_
  intro hnone
  have hlast : last? id races = none := last?_eq_none_iff.mpr (first?_eq_none_iff.mp hnone)
  rw [hlast] at h
  cases h

end Race

/-! ## The index after an update -/

namespace RaceIndex

variable {index : RaceIndex}

/-- The identifiers of the races of the index. -/
def ids (index : RaceIndex) : List Uuid := index.races.map Race.id

theorem nodup_ids (h : index.Ordered) : index.ids.Nodup := by
  refine List.pairwise_map.mpr (h.imp ?_)
  intro race other hlt heq
  rw [heq] at hlt
  exact Nat.lt_irrefl _ hlt

theorem mem_ids_iff {id : Uuid} : id ∈ index.ids ↔ (index.find? id).isSome = true := by
  simp [ids, find?, List.find?_isSome]

/-- The races of an index after an update: each is what first appeared under its identifier, before
the update or in it, with the state of its last appearance in the update. -/
theorem find?_putAll (h : index.Ordered) (races : List Race) (id : Uuid) :
    (index.putAll races).find? id =
      ((index.find? id).or (Race.first? id races)).map fun first =>
        ((Race.last? id races).map first.mergeMutable).getD first := by
  induction races using List.reverseRecOn with
  | nil =>
      show index.find? id = _
      cases index.find? id with
      | none => rfl
      | some stored => rfl
  | append_singleton races race ih =>
      have hput : index.putAll (races ++ [race]) = (index.putAll races).put race :=
        index.putAll_append races [race]
      rw [hput, find?_put (ordered_putAll h races), Race.first?_append, Race.last?_append,
        Race.first?_singleton, Race.last?_singleton]
      by_cases hid : id = race.id
      · rw [← hid, ih, if_pos rfl, if_pos rfl, ← Option.or_assoc]
        cases (index.find? id).or (Race.first? id races) with
        | none => rfl
        | some first =>
            cases Race.last? id races with
            | none => rfl
            | some last => simp [Race.mergeMutable_mergeMutable]
      · rw [if_neg hid, if_neg hid, ih, Option.or_none, Option.none_or]

/-- Of an update only the first and the last race with every identifier count. -/
theorem putAll_congr (h : index.Ordered) {races others : List Race}
    (hfirst : ∀ id, Race.first? id races = Race.first? id others)
    (hlast : ∀ id, Race.last? id races = Race.last? id others) :
    index.putAll races = index.putAll others := by
  refine (ordered_putAll h races).eq_of_find? (ordered_putAll h others) ?_
  intro id
  rw [find?_putAll h, find?_putAll h, hfirst, hlast]

theorem putAll_append_self (h : index.Ordered) (races : List Race) :
    index.putAll (races ++ races) = index.putAll races := by
  refine putAll_congr h ?_ ?_
  · intro id
    rw [Race.first?_append, Option.or_self]
  · intro id
    rw [Race.last?_append, Option.or_self]

/-- Updates of different races commute. -/
theorem putAll_append_comm (h : index.Ordered) {races others : List Race}
    (hdisjoint : ∀ race ∈ races, ∀ other ∈ others, race.id ≠ other.id) :
    index.putAll (races ++ others) = index.putAll (others ++ races) := by
  -- At most one of the two updates has races with a given identifier.
  have halone : ∀ id, (∀ race ∈ races, race.id ≠ id) ∨ ∀ other ∈ others, other.id ≠ id := by
    intro id
    by_cases hraces : ∀ race ∈ races, race.id ≠ id
    · exact .inl hraces
    · refine .inr ?_
      push Not at hraces
      obtain ⟨race, hrace, hid⟩ := hraces
      intro other hother heq
      exact hdisjoint race hrace other hother (hid.trans heq.symm)
  refine putAll_congr h ?_ ?_
  · intro id
    rcases halone id with hraces | hothers
    · simp [Race.first?_eq_none_iff.mpr hraces]
    · simp [Race.first?_eq_none_iff.mpr hothers]
  · intro id
    rcases halone id with hraces | hothers
    · simp [Race.last?_eq_none_iff.mpr hraces]
    · simp [Race.last?_eq_none_iff.mpr hothers]

end RaceIndex

/-! ## Updates of a store -/

namespace Backend

open Files
open DirectoryStore (fresh lapRace)

/-- The races that a store holds. -/
def index : Backend → RaceIndex
  | .memory store => store.index
  | .directory store => store.index

theorem race?_eq (store : Backend) (id : Uuid) : Store.race? store id = .ok (store.index.find? id) := by
  cases store <;> rfl

theorem races_eq (store : Backend) : Store.races store = .ok store.index.newestFirst := by
  cases store <;> rfl

/-- Updates a store with one batch of races after the other. -/
def updates (store : Backend) (batches : List (List Race)) : List StoreAnswer × Backend :=
  StoreAction.performAll store (batches.map .upsertRaces)

/-- A store after updates. -/
def updated (store : Backend) (batches : List (List Race)) : Backend := (store.updates batches).2

/-- No update fails at a file. -/
def Undisturbed (store : Backend) (batches : List (List Race)) : Prop :=
  ∀ answer ∈ (store.updates batches).1, answer.isFileFailure = false

instance (store : Backend) (batches : List (List Race)) : Decidable (store.Undisturbed batches) :=
  inferInstanceAs (Decidable (∀ answer ∈ (store.updates batches).1, answer.isFileFailure = false))

theorem undisturbed_cons {store : Backend} {races : List Race} {batches : List (List Race)} :
    store.Undisturbed (races :: batches) ↔
      ((StoreAction.upsertRaces races).perform store).1.isFileFailure = false ∧
        ((StoreAction.upsertRaces races).perform store).2.Undisturbed batches :=
  List.forall_mem_cons

/-- A store in memory takes every update. -/
theorem undisturbed_memory (store : MemoryStore) (batches : List (List Race)) :
    (Backend.memory store).Undisturbed batches := by
  induction batches generalizing store with
  | nil => exact List.forall_mem_nil _
  | cons races batches ih => exact undisturbed_cons.mpr ⟨rfl, ih _⟩

theorem Undisturbed.of_append {store : Backend} {batches others : List (List Race)}
    (h : store.Undisturbed (batches ++ others)) : store.Undisturbed batches := by
  intro answer hanswer
  have happend : (store.updates (batches ++ others)).1 = (store.updates batches).1 ++
      (StoreAction.performAll (store.updated batches) (others.map .upsertRaces)).1 := by
    rw [updates, List.map_append, StoreAction.performAll_append]
    rfl
  refine h answer ?_
  rw [happend]
  exact List.mem_append_left _ hanswer

/-- An update of a directory that fails leaves the held races alone. -/
theorem index_of_upsert_error {store next : DirectoryStore} {races : List Race}
    {failure : StorageError} (h : store.upsert races = (.error failure, next)) :
    next.index = store.index := by
  simp only [DirectoryStore.upsert] at h
  split at h
  · cases h
    rfl
  · rename_i written hwrite
    split at h
    · cases h
      obtain ⟨files, -, rfl⟩ := DirectoryStore.writeTemporary_cases hwrite
      rfl
    · cases h

/-- One update: it succeeds and puts its races into the index, or it fails at a file and leaves the
index alone. -/
theorem perform_upsertRaces (store : Backend) (races : List Race) :
    (((StoreAction.upsertRaces races).perform store).1 = .ok .nothing ∧
        ((StoreAction.upsertRaces races).perform store).2.index = store.index.putAll races) ∨
      (((StoreAction.upsertRaces races).perform store).1.isFileFailure = true ∧
        ((StoreAction.upsertRaces races).perform store).2.index = store.index) := by
  cases store with
  | memory store => exact .inl ⟨rfl, rfl⟩
  | directory store =>
      cases hupdate : store.upsert races with
      | mk result next =>
          have houtcome : (StoreAction.upsertRaces races).perform (Backend.directory store) =
              (result.map fun _ => .nothing, Backend.directory next) := by
            show StoreAction.ofWrite ((store.upsert races).map id Backend.directory) = _
            rw [hupdate]
            rfl
          rw [houtcome]
          cases result with
          | error failure =>
              obtain ⟨path, rfl⟩ := DirectoryStore.upsert_error hupdate
              exact .inr ⟨rfl, index_of_upsert_error hupdate⟩
          | ok done => exact .inl ⟨rfl, (DirectoryStore.onFile_of_upsert hupdate).2.1⟩

/-- A store that was opened is ordered. -/
theorem ordered_openFrom {files later : Tree} {config : StorageConfig} {store : Backend}
    (h : openFrom files config = (.ok store, later)) : store.index.Ordered := by
  cases config with
  | memory =>
      cases h
      exact List.Pairwise.nil
  | jsonl dataDir =>
      unfold openFrom at h
      cases hopen : DirectoryStore.openAt dataDir files with
      | mk result left =>
          simp only [hopen] at h
          cases result with
          | error failure => cases h
          | ok directory =>
              cases h
              obtain ⟨races, -, hindex⟩ := (DirectoryStore.opened_of_openAt hopen).2.loaded
              show directory.index.Ordered
              rw [hindex]
              exact RaceIndex.ordered_ofList races

/-- Every operation keeps the order, whether it succeeds or not. -/
theorem ordered_perform {store : Backend} (h : store.index.Ordered) (action : StoreAction) :
    (action.perform store).2.index.Ordered := by
  cases action with
  | insertSamples race samples =>
      cases store with
      | memory store =>
          show (store.insert race samples).index.Ordered
          unfold MemoryStore.insert
          split
          · exact h
          · exact h
      | directory store =>
          show (store.insert race samples).2.index.Ordered
          rcases DirectoryStore.insert_cases store race samples with hsame | ⟨_, files, -, hfiles⟩
          · rw [hsame]
            exact h
          · rw [hfiles]
            exact h
  | upsertRaces races =>
      rcases perform_upsertRaces store races with ⟨-, hindex⟩ | ⟨-, hindex⟩
      · rw [hindex]
        exact RaceIndex.ordered_putAll h races
      · rw [hindex]
        exact h
  | selectLastSample id => exact h
  | selectRace id => exact h
  | selectRaces => exact h
  | selectSamples id => exact h
  | selectLaps id => exact h

/-- A store after updates that no file disturbed: all of them succeeded, and the races of all batches
were put into the index. -/
theorem index_updates {store : Backend} {batches : List (List Race)}
    (h : store.Undisturbed batches) :
    (store.updates batches).1 = (batches.map fun _ => .ok .nothing) ∧
      (store.updated batches).index = store.index.putAll batches.flatten := by
  induction batches generalizing store with
  | nil => exact ⟨rfl, rfl⟩
  | cons races batches ih =>
      obtain ⟨hfirst, hrest⟩ := undisturbed_cons.mp h
      rcases perform_upsertRaces store races with ⟨hanswer, hindex⟩ | ⟨hfailed, -⟩
      · obtain ⟨hanswers, hlast⟩ := ih hrest
        rw [hindex] at hlast
        rw [List.flatten_cons, RaceIndex.putAll_append]
        exact ⟨congrArg₂ List.cons hanswer hanswers, hlast⟩
      · rw [hfailed] at hfirst
        cases hfirst

/-- The races of a store after updates that no file disturbed. -/
theorem race?_updated {store : Backend} (hordered : store.index.Ordered)
    {batches : List (List Race)} (h : store.Undisturbed batches) (id : Uuid) :
    Store.race? (store.updated batches) id =
      .ok (((store.index.find? id).or (Race.first? id batches.flatten)).map fun first =>
        ((Race.last? id batches.flatten).map first.mergeMutable).getD first) := by
  rw [race?_eq, (index_updates h).2, RaceIndex.find?_putAll hordered]

/-- An updated race has the identity of its first appearance and the state of its last one. -/
theorem exists_race?_updated {store : Backend} (hordered : store.index.Ordered)
    {batches : List (List Race)} (h : store.Undisturbed batches) {id : Uuid} {last : Race}
    (hlast : Race.last? id batches.flatten = some last) :
    ∃ first race, (store.index.find? id).or (Race.first? id batches.flatten) = some first ∧
      Store.race? (store.updated batches) id = .ok (some race) ∧
      race.SameRace first ∧ race.SameState last := by
  obtain ⟨new, hnew⟩ := Race.exists_first?_of_last? hlast
  have hfirst : ∃ first, (store.index.find? id).or (Race.first? id batches.flatten) = some first := by
    rw [hnew]
    cases store.index.find? id with
    | none => exact ⟨new, rfl⟩
    | some stored => exact ⟨stored, rfl⟩
  obtain ⟨first, hfirst⟩ := hfirst
  refine ⟨first, first.mergeMutable last, hfirst, ?_, Race.sameRace_mergeMutable first last,
    Race.sameState_mergeMutable first last⟩
  rw [race?_updated hordered h, hfirst, hlast]
  rfl

/-- A race that is in no batch is what it was. -/
theorem race?_updated_of_forall_ne {store : Backend} (hordered : store.index.Ordered)
    {batches : List (List Race)} (h : store.Undisturbed batches) {id : Uuid}
    (hother : ∀ race ∈ batches.flatten, race.id ≠ id) :
    Store.race? (store.updated batches) id = Store.race? store id := by
  rw [race?_updated hordered h, Race.first?_eq_none_iff.mpr hother,
    Race.last?_eq_none_iff.mpr hother, race?_eq, Option.or_none]
  cases store.index.find? id with
  | none => rfl
  | some stored => rfl

/-- What is listed after updates are the races that were stored and those of the batches, each of
them once. -/
theorem exists_races_updated {store : Backend} (hordered : store.index.Ordered)
    {batches : List (List Race)} (h : store.Undisturbed batches) :
    ∃ races, Store.races (store.updated batches) = .ok races ∧ (races.map Race.id).Nodup ∧
      ∀ id, id ∈ races.map Race.id ↔
        id ∈ store.index.ids ∨ ∃ race ∈ batches.flatten, race.id = id := by
  have hindex := (index_updates h).2
  have hafter : (store.updated batches).index.Ordered := by
    rw [hindex]
    exact RaceIndex.ordered_putAll hordered _
  have hperm : ((store.updated batches).index.newestFirst.map Race.id).Perm
      (store.updated batches).index.ids :=
    (List.mergeSort_perm _ _).map Race.id
  refine ⟨_, races_eq _, hperm.nodup_iff.mpr (RaceIndex.nodup_ids hafter), ?_⟩
  intro id
  have hfound : (Race.first? id batches.flatten).isSome = true ↔
      ∃ race ∈ batches.flatten, race.id = id := by
    rw [Race.first?, List.find?_isSome]
    simp only [beq_iff_eq]
  rw [hperm.mem_iff, RaceIndex.mem_ids_iff, RaceIndex.mem_ids_iff, hindex,
    RaceIndex.find?_putAll hordered, Option.isSome_map, Option.isSome_or, Bool.or_eq_true, hfound]

/-- A batch that is put in a second time changes nothing. -/
theorem index_updated_again {store : Backend} (hordered : store.index.Ordered)
    {batches : List (List Race)} {again : List Race}
    (h : store.Undisturbed (batches ++ [again, again])) :
    (store.updated (batches ++ [again, again])).index =
      (store.updated (batches ++ [again])).index := by
  have hsplit : batches ++ [again, again] = (batches ++ [again]) ++ [again] := by simp
  have honce : store.Undisturbed (batches ++ [again]) := (hsplit ▸ h).of_append
  have hbefore := RaceIndex.ordered_putAll hordered batches.flatten
  calc (store.updated (batches ++ [again, again])).index
      = store.index.putAll (batches.flatten ++ (again ++ again)) := by
        rw [(index_updates h).2]
        simp
    _ = (store.index.putAll batches.flatten).putAll again := by
        rw [RaceIndex.putAll_append, RaceIndex.putAll_append_self hbefore]
    _ = (store.updated (batches ++ [again])).index := by
        rw [(index_updates honce).2, List.flatten_append, RaceIndex.putAll_append]
        simp

/-- Two batches without a common identifier may come in either order. -/
theorem index_updated_swap {store : Backend} (hordered : store.index.Ordered)
    {batches rest : List (List Race)} {first second : List Race}
    (hdisjoint : ∀ race ∈ first, ∀ other ∈ second, race.id ≠ other.id)
    (h : store.Undisturbed (batches ++ first :: second :: rest))
    (h' : store.Undisturbed (batches ++ second :: first :: rest)) :
    (store.updated (batches ++ first :: second :: rest)).index =
      (store.updated (batches ++ second :: first :: rest)).index := by
  have hbefore := RaceIndex.ordered_putAll hordered batches.flatten
  have hindex : ∀ {one two : List Race}, store.Undisturbed (batches ++ one :: two :: rest) →
      (store.updated (batches ++ one :: two :: rest)).index =
        ((store.index.putAll batches.flatten).putAll (one ++ two)).putAll rest.flatten := by
    intro one two hundisturbed
    rw [(index_updates hundisturbed).2, ← RaceIndex.putAll_append, ← RaceIndex.putAll_append]
    simp
  rw [hindex h, hindex h', RaceIndex.putAll_append_comm hbefore hdisjoint]

/-- Identity of the first appearance, state of the last update. Where no file fails, updates of a
store succeed, in memory as in a directory. The races listed afterwards are those that were stored
and those that were put in, each of them once. A race that was not put in is what it was. One that
was put in has the identity of what was stored under its identifier, or else of the first race that
was put in under it, and the state of the last one. So the cuts between the batches do not matter,
nor the kind of the store; a batch that is put in again changes nothing; and two batches without a
common identifier may come in either order.

The races are held in order from the opening of a store on (`ordered_openFrom`), whatever is done with
it (`ordered_perform`). -/
theorem updated_to_last_state {store : Backend} (hordered : store.index.Ordered)
    {batches : List (List Race)} (hundisturbed : store.Undisturbed batches) :
    (store.updates batches).1 = (batches.map fun _ => .ok .nothing) ∧
      (∃ races, Store.races (store.updated batches) = .ok races ∧ (races.map Race.id).Nodup ∧
        ∀ id, id ∈ races.map Race.id ↔
          id ∈ store.index.ids ∨ ∃ race ∈ batches.flatten, race.id = id) ∧
      (∀ id, (∀ race ∈ batches.flatten, race.id ≠ id) →
        Store.race? (store.updated batches) id = Store.race? store id) ∧
      (∀ id last, Race.last? id batches.flatten = some last →
        ∃ first race, (store.index.find? id).or (Race.first? id batches.flatten) = some first ∧
          Store.race? (store.updated batches) id = .ok (some race) ∧
          race.SameRace first ∧ race.SameState last) ∧
      (∀ (other : Backend) others, other.index = store.index →
        others.flatten = batches.flatten → other.Undisturbed others →
        (other.updated others).index = (store.updated batches).index) ∧
      (∀ again, store.Undisturbed (batches ++ [again, again]) →
        (store.updated (batches ++ [again, again])).index =
          (store.updated (batches ++ [again])).index) ∧
      ∀ first second rest, (∀ race ∈ first, ∀ other ∈ second, race.id ≠ other.id) →
        store.Undisturbed (batches ++ first :: second :: rest) →
        store.Undisturbed (batches ++ second :: first :: rest) →
        (store.updated (batches ++ first :: second :: rest)).index =
          (store.updated (batches ++ second :: first :: rest)).index := by
  refine ⟨(index_updates hundisturbed).1, exists_races_updated hordered hundisturbed,
    fun id => race?_updated_of_forall_ne hordered hundisturbed,
    fun id last => exists_race?_updated hordered hundisturbed, ?_, ?_, ?_⟩
  · intro other others hindex hflatten hundisturbed'
    rw [(index_updates hundisturbed).2, (index_updates hundisturbed').2, hindex, hflatten]
  · intro again
    exact index_updated_again hordered
  · intro first second rest
    exact index_updated_swap hordered

/-- A race, and then, in the same batch and in the next one, two other races under its identifier. -/
def takenOver : List (List Race) := [
  [lapRace .one, { lapRace .one with car := 7, position := 3 }],
  [{ lapRace .one with track := 9, paused := true }]]

/-- Put into a new store of either kind, it keeps its car and its track and is paused in the end. -/
theorem updated_of_takenOver :
    Store.race? ((Backend.memory .empty).updated takenOver) ⟨2⟩ =
        .ok (some { lapRace .one with paused := true }) ∧
      Store.race? ((Backend.directory fresh).updated takenOver) ⟨2⟩ =
        .ok (some { lapRace .one with paused := true }) := by
  have hheld : ∀ store : Backend, store.index = .empty → store.Undisturbed takenOver →
      Store.race? (store.updated takenOver) ⟨2⟩ =
        .ok (some { lapRace .one with paused := true }) := by
    intro store hempty hundisturbed
    have hordered : store.index.Ordered := by
      rw [hempty]
      exact List.Pairwise.nil
    have hlast : Race.last? ⟨2⟩ takenOver.flatten =
        some { lapRace .one with track := 9, paused := true } := by decide +kernel
    have hfirst : (store.index.find? ⟨2⟩).or (Race.first? ⟨2⟩ takenOver.flatten) =
        some (lapRace .one) := by
      rw [hempty]
      decide +kernel
    obtain ⟨-, -, -, hupdated, -⟩ := updated_to_last_state hordered hundisturbed
    obtain ⟨first, race, hsome, hrace, hidentity, hstate⟩ := hupdated ⟨2⟩ _ hlast
    obtain rfl : lapRace .one = first := Option.some.inj (hfirst.symm.trans hsome)
    rw [hrace, Race.eq_mergeMutable hidentity hstate]
    rfl
  refine ⟨hheld _ rfl (undisturbed_memory _ _), hheld _ rfl ?_⟩
  decide +kernel

end Backend

end RaceIngest
