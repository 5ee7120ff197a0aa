import RaceIngest.Proofs.Store.Index
import RaceIngest.Proofs.Session.Moves
import RaceIngest.Store.Memory

/-!
# What a reliable store keeps

A `Shelf` is the content of a store without its representation: the race that is stored for every
identifier, and the samples that are stored for it. An update of races changes the shelf entry by
entry (`Shelf.put`), and an insertion of samples adds them to those of their race.

A store is `Reliable` when none of its writes fails and its content changes as the shelf says. A
world without an outage over such a store remembers everything that was ever written: its store
holds what the calls so far put on the shelf (`World.Kept`), also between two calls of one
operation. Statements about the store in the middle of an operation are therefore statements about
the calls so far.

## Main results

* `MemoryStore.reliable`: a store in memory is reliable.
* `World.Kept.passed`: in every state that a script passes, the store holds what was called so far.
-/

namespace RaceIngest

/-! ## Shelves -/

/-- The content of a store: the race and the samples stored for every identifier. -/
structure Shelf where
  race? : Uuid → Option Race
  samples : Uuid → List Recorded

namespace Shelf

/-- Stores a race, or changes what may change of a stored one. -/
def put (shelf : Shelf) (race : Race) : Shelf :=
  { shelf with
    race? := fun id =>
      if id = race.id then some (((shelf.race? race.id).map (·.mergeMutable race)).getD race)
      else shelf.race? id }

/-- Adds samples to those of a race. -/
def insert (shelf : Shelf) (race : Race) (samples : List Recorded) : Shelf :=
  { shelf with
    samples := fun id =>
      if id = race.id then shelf.samples id ++ samples else shelf.samples id }

/-- What a call does to the content of a store. -/
def apply (shelf : Shelf) : Call → Shelf
  | .upsert races => races.foldl put shelf
  | .insert race samples => shelf.insert race samples
  | .last _ _ => shelf

/-- The content of a store after some calls. -/
def after (shelf : Shelf) (calls : List Call) : Shelf := calls.foldl apply shelf

@[simp] theorem after_nil (shelf : Shelf) : shelf.after [] = shelf := rfl

theorem after_append (shelf : Shelf) (first second : List Call) :
    shelf.after (first ++ second) = (shelf.after first).after second :=
  List.foldl_append

theorem race?_put_self (shelf : Shelf) (race : Race) :
    (shelf.put race).race? race.id =
      some (((shelf.race? race.id).map (·.mergeMutable race)).getD race) := by
  simp [put]

theorem race?_put_of_ne (shelf : Shelf) {race : Race} {id : Uuid} (h : id ≠ race.id) :
    (shelf.put race).race? id = shelf.race? id := by
  simp [put, h]

/-- What is stored stays stored. -/
theorem isSome_race?_put {shelf : Shelf} {id : Uuid} (h : (shelf.race? id).isSome = true)
    (race : Race) : ((shelf.put race).race? id).isSome = true := by
  by_cases hsame : id = race.id
  · rw [hsame, race?_put_self]
    rfl
  · rwa [race?_put_of_ne _ hsame]

end Shelf

/-! ## Reliable stores -/

/-- A store none of whose writes fails. `Sound` is what its states have in common. -/
structure Reliable (σ : Type) [Store σ] where
  Sound : σ → Prop
  shelf : σ → Shelf
  race?_eq : ∀ {store}, Sound store → ∀ id, Store.race? store id = .ok ((shelf store).race? id)
  samples_eq : ∀ {store}, Sound store → ∀ id,
    Store.samples store id = .ok ((shelf store).samples id)
  upsert : ∀ {store}, Sound store → ∀ races, ∃ store',
    Store.upsertRaces store races = (.ok (), store') ∧ Sound store' ∧
      shelf store' = (shelf store).apply (.upsert races)
  insert : ∀ {store}, Sound store → ∀ race samples, ∃ store',
    Store.insertSamples store race samples = (.ok (), store') ∧ Sound store' ∧
      shelf store' = (shelf store).apply (.insert race samples)

namespace MemoryStore

/-- The content of a store in memory. -/
def shelf (store : MemoryStore) : Shelf := ⟨store.index.find?, store.samplesOf⟩

theorem shelf_putAll {index : RaceIndex} (h : index.Ordered)
    (recorded : List (Uuid × List Recorded)) (races : List Race) :
    shelf ⟨index.putAll races, recorded⟩ = races.foldl Shelf.put (shelf ⟨index, recorded⟩) := by
  induction races generalizing index with
  | nil => rfl
  | cons race races ih =>
      have hput : shelf ⟨index.put race, recorded⟩ = (shelf ⟨index, recorded⟩).put race := by
        unfold shelf Shelf.put
        congr 1
        funext id
        exact RaceIndex.find?_put h race id
      rw [List.foldl_cons, ← hput]
      exact ih (RaceIndex.ordered_put h race)

theorem shelf_insert (store : MemoryStore) (race : Race) (samples : List Recorded) :
    (store.insert race samples).shelf = store.shelf.insert race samples := by
  unfold insert
  cases samples with
  | nil => simp [Shelf.insert, shelf]
  | cons sample samples =>
      unfold shelf Shelf.insert
      simp only [List.isEmpty_cons, Bool.false_eq_true, if_false]
      congr 1
      funext id
      by_cases hsame : id = race.id
      · rw [hsame, if_pos rfl]
        exact lookup_appendTo_self _ _ _
      · rw [if_neg hsame]
        exact congrArg (Option.getD · []) (lookup_appendTo_of_ne hsame _ _)

/-- A store in memory whose races are in order is reliable. -/
def reliable : Reliable MemoryStore where
  Sound store := store.index.Ordered
  shelf := shelf
  race?_eq _ _ := rfl
  samples_eq _ _ := rfl
  upsert {store} h races :=
    ⟨_, rfl, RaceIndex.ordered_putAll h races, shelf_putAll h store.recorded races⟩
  insert {store} h race samples := by
    refine ⟨store.insert race samples, rfl, ?_, store.shelf_insert race samples⟩
    unfold insert
    split <;> exact h

end MemoryStore

/-! ## Worlds without outages -/

/-- The states that a run of a script passes, the first and the last included. -/
def Script.passed {α σ : Type} (answer : (r : Request) → σ → r.Answer × σ) :
    Script α → σ → List σ
  | .done _, state => [state]
  | .ask request next, state =>
    state :: (next (answer request state).1).passed answer (answer request state).2

namespace World

variable {σ : Type} [Store σ]

/-- No call fails, and the store holds what the calls so far put on a shelf. -/
structure Kept (reliable : Reliable σ) (initial : Shelf) (world : World σ) : Prop where
  outage_eq : world.outage = .none
  sound : reliable.Sound world.store
  shelf_eq : reliable.shelf world.store = initial.after world.calls

variable {reliable : Reliable σ} {initial : Shelf} {world : World σ}

theorem Kept.fails_eq (h : world.Kept reliable initial) (request : Request) :
    world.fails request = false := by
  unfold fails
  rw [h.outage_eq]
  cases request.method? <;> rfl

/-- Every request that is answered keeps the store in step with the calls. -/
theorem Kept.answer (h : world.Kept reliable initial) (request : Request) :
    (world.answer request).2.Kept reliable initial := by
  have hfails := h.fails_eq request
  cases request with
  | insert race samples =>
      obtain ⟨store', heq, hsound, hshelf⟩ := reliable.insert h.sound race samples
      refine ⟨?_, ?_, ?_⟩ <;>
        simp only [World.answer, call, hfails, act, note, Bool.false_eq_true, if_false, heq]
      · exact h.outage_eq
      · exact hsound
      · rw [hshelf, h.shelf_eq, Shelf.after_append]
        rfl
  | upsert races =>
      obtain ⟨store', heq, hsound, hshelf⟩ := reliable.upsert h.sound races
      refine ⟨?_, ?_, ?_⟩ <;>
        simp only [World.answer, call, hfails, act, note, Bool.false_eq_true, if_false, heq]
      · exact h.outage_eq
      · exact hsound
      · rw [hshelf, h.shelf_eq, Shelf.after_append]
        rfl
  | last race =>
      refine ⟨h.outage_eq, h.sound, ?_⟩
      change reliable.shelf world.store = initial.after (world.calls ++ _)
      rw [h.shelf_eq, Shelf.after_append]
      rfl
  | publish event => exact ⟨h.outage_eq, h.sound, h.shelf_eq⟩
  | clock => exact ⟨h.outage_eq, h.sound, h.shelf_eq⟩
  | freshId => exact ⟨h.outage_eq, h.sound, h.shelf_eq⟩

theorem Kept.run {α : Type} (h : world.Kept reliable initial) (script : Script α) :
    (script.run World.answer world).2.Kept reliable initial := by
  induction script generalizing world with
  | done result => exact h
  | ask request next ih => exact ih _ (h.answer request)

/-- An answer only adds to the calls. -/
theorem calls_answer (world : World σ) (request : Request) :
    world.calls <+: (world.answer request).2.calls := by
  cases request with
  | insert race samples => exact ⟨_, (world.extends_insert race samples).calls_eq.symm⟩
  | upsert races => exact ⟨_, (world.extends_upsert races).calls_eq.symm⟩
  | last race => exact ⟨_, (world.extends_last race).calls_eq.symm⟩
  | publish event => exact ⟨_, (world.extends_publish event).calls_eq.symm⟩
  | clock => exact ⟨_, world.extends_clock.calls_eq.symm⟩
  | freshId => exact ⟨_, world.extends_freshId.calls_eq.symm⟩

theorem calls_run {α : Type} (script : Script α) (world : World σ) :
    world.calls <+: (script.run World.answer world).2.calls := by
  induction script generalizing world with
  | done result => exact List.prefix_rfl
  | ask request next ih => exact (world.calls_answer request).trans (ih _ _)

/-- In every state that a script passes, the store holds what was called so far, and that is a
part of what the script calls, from its beginning. -/
theorem Kept.passed {α : Type} (h : world.Kept reliable initial) (script : Script α)
    {between : World σ} (hbetween : between ∈ script.passed World.answer world) :
    between.Kept reliable initial ∧ world.calls <+: between.calls ∧
      between.calls <+: (script.run World.answer world).2.calls := by
  induction script generalizing world with
  | done result =>
      rw [Script.passed, List.mem_singleton] at hbetween
      rw [hbetween]
      exact ⟨h, List.prefix_rfl, List.prefix_rfl⟩
  | ask request next ih =>
      rcases List.mem_cons.mp hbetween with rfl | hlater
      · exact ⟨h, List.prefix_rfl, calls_run (.ask request next) _⟩
      · obtain ⟨hkept, hbefore, hafter⟩ := ih _ (h.answer request) hlater
        exact ⟨hkept, (world.calls_answer request).trans hbefore, hafter⟩

end World

end RaceIngest
