import Mathlib.Data.Set.Insert
import Mathlib.Order.Monotone.Basic
import RaceIngest.Proofs.Session.Belonging
import RaceIngest.Proofs.Store.Shelf

/-!
# Sessions that share a world

Several sessions share a store in memory, the events that they publish, and the supplies of clock
readings and identifiers. A `Division` says which races and which sessions are those of one side,
and which are those of the others. The world of all of them has a part that is that side's: what is
stored of its races, and the events of its sessions. The part is what a world would be that only the
one side works on, if that side finds the readings and identifiers there that it draws from the
supplies of the whole: a `Selection` picks them.

A request of the one side is answered alike in both worlds, and keeps them whole and part. A request
of the others leaves the part as it is.

## Main definitions

* `Division`, `World.Divided`, `World.Part`,
* `Draws`, the places of the supplies that were drawn from, and `Selection`.

## Main statements

* `World.Part.act`, `World.Part.act_of_foreign`,
* `Draws.Fit.exists_selection`: whatever was drawn, some increasing selection picks it.
-/

namespace RaceIngest

open Calendar

/-! ## Drawing from supplies -/

/-- Which entries of supplies are taken, in this order. -/
structure Selection where
  readings : Nat → Nat
  ids : Nat → Nat
  sessions : Nat → Nat

/-- A selection keeps the order of the supplies, and takes nothing twice. -/
structure Selection.Increasing (selection : Selection) : Prop where
  readings : StrictMono selection.readings
  ids : StrictMono selection.ids
  sessions : StrictMono selection.sessions

/-- The entries of supplies that were drawn so far, oldest first. -/
structure Draws where
  readings : List Nat := []
  ids : List Nat := []
  sessions : List Nat := []

/-- The entries were drawn in their order, and none at a bound or above. -/
structure DrawnBelow (bound : Nat) (drawn : List Nat) : Prop where
  sorted : drawn.Pairwise (· < ·)
  below : ∀ n ∈ drawn, n < bound

theorem drawnBelow_nil (bound : Nat) : DrawnBelow bound [] :=
  ⟨List.Pairwise.nil, nofun⟩

theorem DrawnBelow.mono {bound higher : Nat} {drawn : List Nat} (h : DrawnBelow bound drawn)
    (hle : bound ≤ higher) : DrawnBelow higher drawn :=
  ⟨h.sorted, fun n hmem => Nat.lt_of_lt_of_le (h.below n hmem) hle⟩

/-- The entry at the bound may be drawn next. -/
theorem DrawnBelow.concat {bound : Nat} {drawn : List Nat} (h : DrawnBelow bound drawn) :
    DrawnBelow (bound + 1) (drawn ++ [bound]) := by
  constructor
  · refine List.pairwise_append.mpr ⟨h.sorted, List.pairwise_singleton _ _, ?_⟩
    intro n hmem last hhere
    rw [List.mem_singleton.mp hhere]
    exact h.below n hmem
  · intro n hmem
    rcases List.mem_append.mp hmem with hbefore | hhere
    · exact Nat.lt_succ_of_lt (h.below n hbefore)
    · rw [List.mem_singleton.mp hhere]
      exact Nat.lt_succ_self _

/-- What was drawn is where an increasing choice begins, which goes on at the bound. -/
theorem DrawnBelow.exists_strictMono {bound : Nat} {drawn : List Nat} (h : DrawnBelow bound drawn) :
    ∃ choice : Nat → Nat, StrictMono choice ∧ ∀ k n, drawn[k]? = some n → choice k = n := by
  refine ⟨fun k => (drawn[k]?).getD (bound + k), strictMono_nat_of_lt_succ fun k => ?_, ?_⟩
  · by_cases hnext : k + 1 < drawn.length
    · have horder :=
        List.pairwise_iff_getElem.mp h.sorted k (k + 1) (by omega) hnext (Nat.lt_succ_self k)
      rw [List.getElem?_eq_getElem (by omega : k < drawn.length), List.getElem?_eq_getElem hnext]
      exact horder
    · rw [List.getElem?_eq_none (by omega : drawn.length ≤ k + 1)]
      by_cases hlast : k < drawn.length
      · have hlow := h.below _ (List.getElem_mem hlast)
        rw [List.getElem?_eq_getElem hlast]
        exact Nat.lt_of_lt_of_le hlow (Nat.le_add_right _ _)
      · rw [List.getElem?_eq_none (by omega : drawn.length ≤ k)]
        simp
  · intro k n hfound
    simp [hfound]

/-- What was drawn is below the bounds of the supplies. -/
structure Draws.Fit (draws : Draws) (read issued opened : Nat) : Prop where
  readings : DrawnBelow read draws.readings
  ids : DrawnBelow issued draws.ids
  sessions : DrawnBelow opened draws.sessions

theorem Draws.Fit.mono {draws : Draws} {read issued opened read' issued' opened' : Nat}
    (hfit : draws.Fit read issued opened) (hreads : read ≤ read') (hissues : issued ≤ issued')
    (hopens : opened ≤ opened') : draws.Fit read' issued' opened' :=
  ⟨hfit.readings.mono hreads, hfit.ids.mono hissues, hfit.sessions.mono hopens⟩

/-- A selection picks what was drawn. -/
structure Selection.Picks (selection : Selection) (draws : Draws) : Prop where
  readings : ∀ k n, draws.readings[k]? = some n → selection.readings k = n
  ids : ∀ k n, draws.ids[k]? = some n → selection.ids k = n
  sessions : ∀ k n, draws.sessions[k]? = some n → selection.sessions k = n

/-- What was drawn later comes after what was drawn before. -/
structure Draws.Begins (before after : Draws) : Prop where
  readings : before.readings <+: after.readings
  ids : before.ids <+: after.ids
  sessions : before.sessions <+: after.sessions

theorem Draws.Begins.refl (draws : Draws) : draws.Begins draws :=
  ⟨List.prefix_rfl, List.prefix_rfl, List.prefix_rfl⟩

theorem Draws.Begins.trans {first second third : Draws} (hone : first.Begins second)
    (htwo : second.Begins third) : first.Begins third :=
  ⟨hone.readings.trans htwo.readings, hone.ids.trans htwo.ids, hone.sessions.trans htwo.sessions⟩

theorem Selection.Picks.of_begins {selection : Selection} {before after : Draws}
    (hpicks : selection.Picks after) (hbegins : before.Begins after) : selection.Picks before := by
  have hlonger {first second : List Nat} (hbegins : first <+: second) {k n : Nat}
      (hfound : first[k]? = some n) : second[k]? = some n := by
    obtain ⟨rest, rfl⟩ := hbegins
    rw [List.getElem?_append_left (List.getElem?_eq_some_iff.mp hfound).1]
    exact hfound
  exact ⟨fun k n hfound => hpicks.readings k n (hlonger hbegins.readings hfound),
    fun k n hfound => hpicks.ids k n (hlonger hbegins.ids hfound),
    fun k n hfound => hpicks.sessions k n (hlonger hbegins.sessions hfound)⟩

/-- Whatever was drawn, some increasing selection picks it. -/
theorem Draws.Fit.exists_selection {draws : Draws} {read issued opened : Nat}
    (hfit : draws.Fit read issued opened) :
    ∃ selection : Selection, selection.Increasing ∧ selection.Picks draws := by
  obtain ⟨readings, hfirst, hpicksReadings⟩ := hfit.readings.exists_strictMono
  obtain ⟨ids, hsecond, hpicksIds⟩ := hfit.ids.exists_strictMono
  obtain ⟨sessions, hthird, hpicksSessions⟩ := hfit.sessions.exists_strictMono
  exact ⟨⟨readings, ids, sessions⟩, ⟨hfirst, hsecond, hthird⟩,
    ⟨hpicksReadings, hpicksIds, hpicksSessions⟩⟩

/-! ## What is whose -/

/-- How races and sessions are divided between one side and the others. -/
structure Division where
  /-- The races of the one side. -/
  owned : Set Uuid
  /-- The races of the others. -/
  foreign : Set Uuid
  /-- The sessions of the one side. -/
  sessions : List Uuid
  /-- The sessions of the others. -/
  strangers : List Uuid

namespace Division

/-- The division seen from the others. -/
def swap (division : Division) : Division :=
  ⟨division.foreign, division.owned, division.strangers, division.sessions⟩

/-- Nothing belongs to both sides. -/
structure Apart (division : Division) : Prop where
  races : ∀ id ∈ division.owned, id ∉ division.foreign
  sessions : ∀ id ∈ division.sessions, id ∉ division.strangers

/-- A race and a session of the same side. -/
def Pairs (division : Division) (race session : Uuid) : Prop :=
  race ∈ division.owned ∧ session ∈ division.sessions ∨
    race ∈ division.foreign ∧ session ∈ division.strangers

/-- The event is about a session of the one side. -/
def announces (division : Division) (event : Event) : Bool :=
  division.sessions.contains event.race.sessionId

/-- The race is one of some side. -/
def Knows (division : Division) (race : Uuid) : Prop :=
  race ∈ division.owned ∨ race ∈ division.foreign

/-- The one side gets a race. -/
def grant (division : Division) (race : Uuid) : Division :=
  { division with owned := insert race division.owned }

/-- The others get a race. -/
def concede (division : Division) (race : Uuid) : Division :=
  { division with foreign := insert race division.foreign }

/-- The one side gets a session. -/
def enroll (division : Division) (session : Uuid) : Division :=
  { division with sessions := division.sessions ++ [session] }

/-- The others get a session. -/
def lose (division : Division) (session : Uuid) : Division :=
  { division with strangers := division.strangers ++ [session] }

theorem Apart.swap {division : Division} (hapart : division.Apart) : division.swap.Apart :=
  ⟨fun id hforeign howned => hapart.races id howned hforeign,
    fun id hstranger hown => hapart.sessions id hown hstranger⟩

/-- A race that belongs to nobody may be given to a side. -/
theorem Apart.grant {division : Division} (hapart : division.Apart) {race : Uuid}
    (hunknown : ¬division.Knows race) : (division.grant race).Apart := by
  refine ⟨fun id hown htheirs => ?_, hapart.sessions⟩
  rcases Set.mem_insert_iff.mp hown with rfl | hearlier
  · exact hunknown (.inr htheirs)
  · exact hapart.races id hearlier htheirs

theorem Apart.concede {division : Division} (hapart : division.Apart) {race : Uuid}
    (hunknown : ¬division.Knows race) : (division.concede race).Apart :=
  (hapart.swap.grant fun hknown => hunknown (Or.comm.mp hknown)).swap

theorem Apart.enroll {division : Division} (hapart : division.Apart) {session : Uuid}
    (hnew : session ∉ division.strangers) : (division.enroll session).Apart := by
  refine ⟨hapart.races, fun id hown htheirs => ?_⟩
  rcases List.mem_append.mp hown with hearlier | hhere
  · exact hapart.sessions id hearlier htheirs
  · exact hnew (List.mem_singleton.mp hhere ▸ htheirs)

theorem Apart.lose {division : Division} (hapart : division.Apart) {session : Uuid}
    (hnew : session ∉ division.sessions) : (division.lose session).Apart :=
  (hapart.swap.enroll hnew).swap

theorem pairs_swap {division : Division} {race session : Uuid} :
    division.swap.Pairs race session ↔ division.Pairs race session :=
  Or.comm

theorem knows_swap {division : Division} {race : Uuid} :
    division.swap.Knows race ↔ division.Knows race :=
  Or.comm

end Division

/-! ## Stores -/

namespace Shelf

variable {division : Division} {shelf whole part : Shelf} {race : Race}

/-- Everything that is stored belongs to a side. -/
structure Divided (division : Division) (shelf : Shelf) : Prop where
  race : ∀ id race, shelf.race? id = some race → division.Pairs id race.sessionId
  samples : ∀ id, shelf.samples id ≠ [] → division.Knows id

/-- One shelf has what the other has of some races, and nothing else. -/
structure Part (owned : Set Uuid) (whole part : Shelf) : Prop where
  race : ∀ id ∈ owned, part.race? id = whole.race? id
  samples : ∀ id ∈ owned, part.samples id = whole.samples id
  race_eq_none : ∀ id, id ∉ owned → part.race? id = none
  samples_eq_nil : ∀ id, id ∉ owned → part.samples id = []

theorem Divided.swap (hdivided : shelf.Divided division) : shelf.Divided division.swap :=
  ⟨fun id race hfound => Division.pairs_swap.mpr (hdivided.race id race hfound),
    fun id hinserted => Division.knows_swap.mpr (hdivided.samples id hinserted)⟩

/-- What belongs to a side belongs to it when the side has more. -/
theorem Divided.grant (hdivided : shelf.Divided division) (id : Uuid) :
    shelf.Divided (division.grant id) :=
  ⟨fun other race hfound => (hdivided.race other race hfound).imp_left fun hown =>
      ⟨Set.mem_insert_of_mem id hown.1, hown.2⟩,
    fun other hinserted => (hdivided.samples other hinserted).imp_left (Set.mem_insert_of_mem id)⟩

theorem Divided.put (hdivided : shelf.Divided division)
    (hpairs : division.Pairs race.id race.sessionId) : (shelf.put race).Divided division := by
  refine ⟨fun id stored hfound => ?_, hdivided.samples⟩
  by_cases hsame : id = race.id
  · rw [hsame, race?_put_self] at hfound
    rw [hsame]
    cases hbefore : shelf.race? race.id with
    | none =>
        rw [hbefore] at hfound
        exact Option.some.inj hfound ▸ hpairs
    | some older =>
        rw [hbefore] at hfound
        exact Option.some.inj hfound ▸ hdivided.race race.id older hbefore
  · rw [race?_put_of_ne _ hsame] at hfound
    exact hdivided.race id stored hfound

theorem Divided.upsert {races : List Race} (hdivided : shelf.Divided division)
    (hpairs : ∀ race ∈ races, division.Pairs race.id race.sessionId) :
    (races.foldl Shelf.put shelf).Divided division := by
  induction races generalizing shelf with
  | nil => exact hdivided
  | cons race races ih =>
      obtain ⟨hfirst, hrest⟩ := List.forall_mem_cons.mp hpairs
      exact ih (hdivided.put hfirst) hrest

theorem Divided.insert (hdivided : shelf.Divided division) (hknown : division.Knows race.id)
    (samples : List Recorded) : (shelf.insert race samples).Divided division := by
  refine ⟨hdivided.race, fun id hinserted => ?_⟩
  by_cases hsame : id = race.id
  · exact hsame ▸ hknown
  · exact hdivided.samples id (by simpa [Shelf.insert, hsame] using hinserted)

/-! What one side writes is written to its part, and what the others write is not. -/

variable {owned : Set Uuid}

theorem Part.put (hshares : Part owned whole part) (hown : race.id ∈ owned) :
    Part owned (whole.put race) (part.put race) := by
  refine ⟨fun id hmine => ?_, hshares.samples, fun id hother => ?_, hshares.samples_eq_nil⟩
  · by_cases hsame : id = race.id
    · rw [hsame, race?_put_self, race?_put_self, hshares.race _ hown]
    · rw [race?_put_of_ne _ hsame, race?_put_of_ne _ hsame, hshares.race id hmine]
  · have hdifferent : id ≠ race.id := fun hsame => hother (hsame ▸ hown)
    rw [race?_put_of_ne _ hdifferent, hshares.race_eq_none id hother]

theorem Part.put_of_foreign (hshares : Part owned whole part) (hother : race.id ∉ owned) :
    Part owned (whole.put race) part := by
  refine ⟨fun id hmine => ?_, hshares.samples, hshares.race_eq_none, hshares.samples_eq_nil⟩
  have hdifferent : id ≠ race.id := fun hsame => hother (hsame ▸ hmine)
  rw [race?_put_of_ne _ hdifferent, hshares.race id hmine]

theorem Part.upsert {races : List Race} (hshares : Part owned whole part)
    (hown : ∀ race ∈ races, race.id ∈ owned) :
    Part owned (races.foldl Shelf.put whole) (races.foldl Shelf.put part) := by
  induction races generalizing whole part with
  | nil => exact hshares
  | cons race races ih =>
      obtain ⟨hfirst, hrest⟩ := List.forall_mem_cons.mp hown
      exact ih (hshares.put hfirst) hrest

theorem Part.upsert_of_foreign {races : List Race} (hshares : Part owned whole part)
    (hother : ∀ race ∈ races, race.id ∉ owned) : Part owned (races.foldl Shelf.put whole) part := by
  induction races generalizing whole with
  | nil => exact hshares
  | cons race races ih =>
      obtain ⟨hfirst, hrest⟩ := List.forall_mem_cons.mp hother
      exact ih (hshares.put_of_foreign hfirst) hrest

theorem Part.insert (hshares : Part owned whole part) (hown : race.id ∈ owned)
    (samples : List Recorded) :
    Part owned (whole.insert race samples) (part.insert race samples) := by
  refine ⟨hshares.race, fun id hmine => ?_, hshares.race_eq_none, fun id hother => ?_⟩
  · simp [Shelf.insert, hshares.samples id hmine]
  · have hdifferent : id ≠ race.id := fun hsame => hother (hsame ▸ hown)
    simp [Shelf.insert, hdifferent, hshares.samples_eq_nil id hother]

theorem Part.insert_of_foreign (hshares : Part owned whole part) (hother : race.id ∉ owned)
    (samples : List Recorded) : Part owned (whole.insert race samples) part := by
  refine ⟨hshares.race, fun id hmine => ?_, hshares.race_eq_none, hshares.samples_eq_nil⟩
  have hdifferent : id ≠ race.id := fun hsame => hother (hsame ▸ hmine)
  simp [Shelf.insert, hdifferent, hshares.samples id hmine]

/-- A race that nothing is stored of may be had as well. -/
theorem Part.grow (hshares : Part owned whole part) {id : Uuid} (hunknown : whole.race? id = none)
    (hempty : whole.samples id = []) : Part (Insert.insert id owned) whole part := by
  have hhere : ∀ other, other ∈ Insert.insert id owned → other ∉ owned → other = id :=
    fun other hmem hnew => (Set.mem_insert_iff.mp hmem).resolve_right hnew
  refine ⟨fun other hmem => ?_, fun other hmem => ?_, fun other hmem => ?_, fun other hmem => ?_⟩
  · by_cases hold : other ∈ owned
    · exact hshares.race other hold
    · rw [hshares.race_eq_none other hold, hhere other hmem hold, hunknown]
  · by_cases hold : other ∈ owned
    · exact hshares.samples other hold
    · rw [hshares.samples_eq_nil other hold, hhere other hmem hold, hempty]
  · exact hshares.race_eq_none other fun hold => hmem (Set.mem_insert_of_mem id hold)
  · exact hshares.samples_eq_nil other fun hold => hmem (Set.mem_insert_of_mem id hold)

end Shelf

/-! ## Worlds -/

theorem MemoryStore.index_insert (store : MemoryStore) (race : Race) (samples : List Recorded) :
    (store.insert race samples).index = store.index := by
  unfold insert
  split <;> rfl

/-- A race of a session of the one side. -/
theorem Race.Within.pairs {division : Division} {session : Uuid} {race : Race}
    (hown : race.Within division.owned session) (hmine : session ∈ division.sessions) :
    division.Pairs race.id race.sessionId :=
  .inl ⟨hown.1, hown.2 ▸ hmine⟩

namespace World

variable {division : Division} {world whole part : World MemoryStore}

/-- The identifiers that were given out are distinct. -/
def Distinct (world : World MemoryStore) : Prop :=
  ∀ i < world.issued, ∀ j < world.issued, world.ids i = world.ids j → i = j

/-- The identifiers that were given out. -/
def given (world : World MemoryStore) : Set Uuid := fun id => ∃ n < world.issued, world.ids n = id

/-- No call fails, and everything that was stored and announced belongs to a side. -/
structure Divided (division : Division) (world : World MemoryStore) : Prop where
  outage_eq : world.outage = .none
  ordered : world.store.index.Ordered
  stored : world.store.shelf.Divided division
  announced : ∀ event ∈ world.events,
    event.race.sessionId ∈ division.sessions ∨ event.race.sessionId ∈ division.strangers
  known : ∀ id, division.Knows id → id ∈ world.given

/-- One world is what one side has of another: what is stored of its races, the events of its
sessions, and the readings and identifiers that it drew. -/
structure Part (selection : Selection) (draws : Draws) (division : Division)
    (whole part : World MemoryStore) : Prop where
  outage_eq : part.outage = .none
  ordered : part.store.index.Ordered
  stored : Shelf.Part division.owned whole.store.shelf part.store.shelf
  events_eq : part.events = whole.events.filter division.announces
  readings_eq : part.readings = whole.readings ∘ selection.readings
  read_eq : part.read = draws.readings.length
  ids_eq : part.ids = whole.ids ∘ selection.ids
  issued_eq : part.issued = draws.ids.length
  given_eq : part.given = division.owned

/-- What is drawn from the supplies to answer a request. -/
def drawing (world : World MemoryStore) (draws : Draws) : Request → Draws
  | .clock => { draws with readings := draws.readings ++ [world.read] }
  | .freshId => { draws with ids := draws.ids ++ [world.issued] }
  | _ => draws

/-- The one side gets the identifier that a request draws. -/
def granting (world : World MemoryStore) (division : Division) : Request → Division
  | .freshId => division.grant (world.ids world.issued)
  | _ => division

/-- The others get the identifier that a request draws. -/
def conceding (world : World MemoryStore) (division : Division) : Request → Division
  | .freshId => division.concede (world.ids world.issued)
  | _ => division

theorem granting_swap (world : World MemoryStore) (division : Division) (request : Request) :
    world.granting division.swap request = (world.conceding division request).swap := by
  cases request <;> rfl

theorem Divided.swap (hdivided : world.Divided division) : world.Divided division.swap :=
  ⟨hdivided.outage_eq, hdivided.ordered, hdivided.stored.swap,
    fun event hmem => (hdivided.announced event hmem).symm,
    fun id hknown => hdivided.known id (Division.knows_swap.mp hknown)⟩

theorem begins_drawing (world : World MemoryStore) (draws : Draws) (request : Request) :
    draws.Begins (world.drawing draws request) := by
  cases request with
  | clock => exact ⟨List.prefix_append _ _, List.prefix_rfl, List.prefix_rfl⟩
  | freshId => exact ⟨List.prefix_rfl, List.prefix_append _ _, List.prefix_rfl⟩
  | insert | upsert | last | publish => exact .refl draws

/-- Answering a request only draws from the supplies. -/
theorem le_act (world : World MemoryStore) (request : Request) (fails : Bool) :
    world.read ≤ (world.act fails request).2.read ∧
      world.issued ≤ (world.act fails request).2.issued := by
  cases request with
  | clock => exact ⟨Nat.le_succ _, Nat.le_refl _⟩
  | freshId => exact ⟨Nat.le_refl _, Nat.le_succ _⟩
  | insert | upsert => cases fails <;> exact ⟨Nat.le_refl _, Nat.le_refl _⟩
  | last | publish => exact ⟨Nat.le_refl _, Nat.le_refl _⟩

theorem ids_act (world : World MemoryStore) (request : Request) (fails : Bool) :
    (world.act fails request).2.ids = world.ids := by
  cases request with
  | insert | upsert => cases fails <;> rfl
  | last | publish | clock | freshId => rfl

/-- What is drawn to answer a request is below the bounds after it. -/
theorem fit_drawing {draws : Draws} {opened : Nat} (hfit : draws.Fit world.read world.issued opened)
    (request : Request) (fails : Bool) :
    (world.drawing draws request).Fit (world.act fails request).2.read
      (world.act fails request).2.issued opened := by
  cases request with
  | clock => exact ⟨hfit.readings.concat, hfit.ids, hfit.sessions⟩
  | freshId => exact ⟨hfit.readings, hfit.ids.concat, hfit.sessions⟩
  | insert | upsert => cases fails <;> exact hfit
  | last | publish => exact hfit

/-- An identifier that is drawn is one that was given out. -/
theorem given_freshId (world : World MemoryStore) (fails : Bool) :
    (world.act fails .freshId).2.given = insert (world.ids world.issued) world.given := by
  ext id
  constructor
  · rintro ⟨n, hbelow, hsame⟩
    rcases Nat.lt_succ_iff_lt_or_eq.mp hbelow with hearlier | rfl
    · exact .inr ⟨n, hearlier, hsame⟩
    · exact .inl hsame.symm
  · rintro (rfl | ⟨n, hearlier, hsame⟩)
    · exact ⟨world.issued, Nat.lt_succ_self _, rfl⟩
    · exact ⟨n, Nat.lt_succ_of_lt hearlier, hsame⟩

/-- An identifier that was not given out yet belongs to nobody. -/
theorem Divided.not_knows (hdivided : world.Divided division) (fails : Bool)
    (hdistinct : (world.act fails .freshId).2.Distinct) :
    ¬division.Knows (world.ids world.issued) := by
  intro hknown
  obtain ⟨n, hbefore, hsame⟩ := hdivided.known _ hknown
  have hequal : n = world.issued :=
    hdistinct n (Nat.lt_succ_of_lt hbefore) world.issued (Nat.lt_succ_self _) hsame
  omega

/-- The one side keeps to its own when it is answered. -/
theorem Divided.act {session : Uuid} {request : Request} (hdivided : world.Divided division)
    (hown : request.Within division.owned session) (hmine : session ∈ division.sessions)
    (fails : Bool) : (world.act fails request).2.Divided (world.granting division request) := by
  cases request with
  | insert race samples =>
      cases fails with
      | true => exact hdivided
      | false =>
          refine ⟨hdivided.outage_eq, ?_, ?_, hdivided.announced, hdivided.known⟩
          · show (world.store.insert race samples).index.Ordered
            rw [MemoryStore.index_insert]
            exact hdivided.ordered
          · show (world.store.insert race samples).shelf.Divided division
            rw [MemoryStore.shelf_insert]
            exact hdivided.stored.insert (.inl hown) samples
  | upsert races =>
      cases fails with
      | true => exact hdivided
      | false =>
          refine ⟨hdivided.outage_eq, RaceIndex.ordered_putAll hdivided.ordered races, ?_,
            hdivided.announced, hdivided.known⟩
          show (MemoryStore.shelf ⟨world.store.index.putAll races, _⟩).Divided division
          rw [MemoryStore.shelf_putAll hdivided.ordered]
          exact hdivided.stored.upsert fun race hmem =>
            Race.Within.pairs (hown race hmem) hmine
  | last | clock =>
      exact ⟨hdivided.outage_eq, hdivided.ordered, hdivided.stored, hdivided.announced,
        hdivided.known⟩
  | publish event =>
      refine ⟨hdivided.outage_eq, hdivided.ordered, hdivided.stored, fun other hmem => ?_,
        hdivided.known⟩
      rcases List.mem_append.mp hmem with hbefore | hnew
      · exact hdivided.announced other hbefore
      · rw [List.mem_singleton.mp hnew]
        exact .inl (hown ▸ hmine)
  | freshId =>
      refine ⟨hdivided.outage_eq, hdivided.ordered, hdivided.stored.grant _, hdivided.announced, ?_⟩
      rw [given_freshId]
      rintro id (hown | hother)
      · exact hown.imp_right fun hbefore => hdivided.known id (.inl hbefore)
      · exact .inr (hdivided.known id (.inr hother))

/-- The others keep to their own when they are answered. -/
theorem Divided.act_of_foreign {session : Uuid} {request : Request}
    (hdivided : world.Divided division) (hown : request.Within division.foreign session)
    (hstranger : session ∈ division.strangers) (fails : Bool) :
    (world.act fails request).2.Divided (world.conceding division request) := by
  have hswapped := hdivided.swap.act hown hstranger fails
  rw [granting_swap] at hswapped
  exact hswapped.swap

/-- A request of the one side is answered alike in its part of the world. -/
theorem Part.act {selection : Selection} {draws : Draws} {session : Uuid} {request : Request}
    (hshares : Part selection draws division whole part) (hdivided : whole.Divided division)
    (hown : request.Within division.owned session) (hmine : session ∈ division.sessions)
    (hpicks : selection.Picks (whole.drawing draws request)) (fails : Bool)
    (hdistinct : (whole.act fails request).2.Distinct) :
    (part.act fails request).1 = (whole.act fails request).1 ∧
      Part selection (whole.drawing draws request) (whole.granting division request)
        (whole.act fails request).2 (part.act fails request).2 := by
  cases request with
  | insert race samples =>
      cases fails with
      | true => exact ⟨rfl, hshares⟩
      | false =>
          refine ⟨rfl, { hshares with ordered := ?_, stored := ?_ }⟩
          · show (part.store.insert race samples).index.Ordered
            rw [MemoryStore.index_insert]
            exact hshares.ordered
          · show Shelf.Part _ (whole.store.insert race samples).shelf
              (part.store.insert race samples).shelf
            rw [MemoryStore.shelf_insert, MemoryStore.shelf_insert]
            exact hshares.stored.insert hown samples
  | upsert races =>
      cases fails with
      | true => exact ⟨rfl, hshares⟩
      | false =>
          refine ⟨rfl, { hshares with
            ordered := RaceIndex.ordered_putAll hshares.ordered races, stored := ?_ }⟩
          show Shelf.Part _ (MemoryStore.shelf ⟨whole.store.index.putAll races, _⟩)
            (MemoryStore.shelf ⟨part.store.index.putAll races, _⟩)
          rw [MemoryStore.shelf_putAll hdivided.ordered, MemoryStore.shelf_putAll hshares.ordered]
          exact hshares.stored.upsert fun race hmem => (hown race hmem).1
  | last race =>
      have hsame : Store.lastSample part.store race = Store.lastSample whole.store race :=
        congrArg (lastOf race) (hshares.stored.samples race hown)
      refine ⟨?_, { hshares with }⟩
      show (if fails then _ else Store.lastSample part.store race) = if fails then _ else _
      rw [hsame]
  | publish event =>
      refine ⟨rfl, { hshares with events_eq := ?_ }⟩
      have hkept : division.announces event = true := List.contains_iff_mem.mpr (hown ▸ hmine)
      show part.events ++ [event] = (whole.events ++ [event]).filter division.announces
      rw [List.filter_append, ← hshares.events_eq, List.filter_cons_of_pos hkept, List.filter_nil]
  | clock =>
      refine ⟨?_, { hshares with read_eq := ?_ }⟩
      · have hhere := hpicks.readings draws.readings.length whole.read (by simp [drawing])
        show part.readings part.read = whole.readings whole.read
        rw [hshares.readings_eq, hshares.read_eq, Function.comp_apply, hhere]
      · show part.read + 1 = (draws.readings ++ [whole.read]).length
        rw [hshares.read_eq, List.length_append, List.length_singleton]
  | freshId =>
      have hunknown := hdivided.not_knows fails hdistinct
      have hsame : part.ids part.issued = whole.ids whole.issued := by
        have hhere := hpicks.ids draws.ids.length whole.issued (by simp [drawing])
        rw [hshares.ids_eq, hshares.issued_eq, Function.comp_apply, hhere]
      refine ⟨hsame, { hshares with stored := ?_, issued_eq := ?_, given_eq := ?_ }⟩
      · apply hshares.stored.grow
        · refine Option.eq_none_iff_forall_ne_some.mpr fun race hfound => ?_
          rcases hdivided.stored.race _ race hfound with hown | hother
          · exact hunknown (.inl hown.1)
          · exact hunknown (.inr hother.1)
        · by_contra hinserted
          exact hunknown (hdivided.stored.samples _ hinserted)
      · show part.issued + 1 = (draws.ids ++ [whole.issued]).length
        rw [hshares.issued_eq, List.length_append, List.length_singleton]
      · rw [given_freshId, hsame, hshares.given_eq]
        rfl

/-- A request of the others changes nothing in the part of the one side. -/
theorem Part.act_of_foreign {selection : Selection} {draws : Draws} {session : Uuid}
    {request : Request} (hshares : Part selection draws division whole part)
    (hdivided : whole.Divided division) (hapart : division.Apart)
    (hother : request.Within division.foreign session) (hstranger : session ∈ division.strangers)
    (fails : Bool) :
    Part selection draws (whole.conceding division request) (whole.act fails request).2 part := by
  have hforeign {id : Uuid} (htheirs : id ∈ division.foreign) : id ∉ division.owned :=
    fun hown => hapart.races id hown htheirs
  cases request with
  | insert race samples =>
      cases fails with
      | true => exact hshares
      | false =>
          refine { hshares with stored := ?_ }
          show Shelf.Part _ (whole.store.insert race samples).shelf part.store.shelf
          rw [MemoryStore.shelf_insert]
          exact hshares.stored.insert_of_foreign (hforeign hother) samples
  | upsert races =>
      cases fails with
      | true => exact hshares
      | false =>
          refine { hshares with stored := ?_ }
          show Shelf.Part _ (MemoryStore.shelf ⟨whole.store.index.putAll races, _⟩) part.store.shelf
          rw [MemoryStore.shelf_putAll hdivided.ordered]
          exact hshares.stored.upsert_of_foreign fun race hmem => hforeign (hother race hmem).1
  | publish event =>
      refine { hshares with events_eq := ?_ }
      have hdropped : ¬division.announces event = true := fun hannounced =>
        hapart.sessions _ (List.contains_iff_mem.mp hannounced) (hother ▸ hstranger)
      show part.events = (whole.events ++ [event]).filter division.announces
      rw [List.filter_append, ← hshares.events_eq, List.filter_cons_of_neg hdropped,
        List.filter_nil, List.append_nil]
  | last | clock | freshId => exact { hshares with }

/-! ## Calls -/

/-- Calling the store changes what was called only. -/
theorem exists_call_eq (world : World MemoryStore) (request : Request) :
    ∃ calls called, (world.call request).2 = { world with calls, called } := by
  cases request with
  | insert race samples => exact ⟨_, _, rfl⟩
  | upsert races => exact ⟨_, _, rfl⟩
  | last race => exact ⟨world.calls, _, rfl⟩
  | publish event => exact ⟨world.calls, _, rfl⟩
  | clock => exact ⟨world.calls, _, rfl⟩
  | freshId => exact ⟨world.calls, _, rfl⟩

/-- Without an outage no call fails. -/
theorem call_fst_of_outage (hreliable : world.outage = .none) (request : Request) :
    (world.call request).1 = false := by
  show request.method?.any (world.outage world.called) = false
  rw [hreliable]
  cases request.method? <;> rfl

theorem Divided.call (hdivided : world.Divided division) (request : Request) :
    (world.call request).2.Divided division := by
  obtain ⟨calls, called, hsame⟩ := world.exists_call_eq request
  rw [hsame]
  exact { hdivided with }

/-- The others call the store without the one side noticing. -/
theorem Part.call_of_foreign {selection : Selection} {draws : Draws}
    (hshares : Part selection draws division whole part) (request : Request) :
    Part selection draws division (whole.call request).2 part := by
  obtain ⟨calls, called, hsame⟩ := whole.exists_call_eq request
  rw [hsame]
  exact { hshares with }

theorem Part.call {selection : Selection} {draws : Draws}
    (hshares : Part selection draws division whole part) (request : Request) :
    Part selection draws division (whole.call request).2 (part.call request).2 := by
  obtain ⟨calls, called, hsame⟩ := part.exists_call_eq request
  rw [hsame]
  exact { hshares.call_of_foreign request with }

/-! ## Sessions that are opened -/

theorem Divided.enroll (hdivided : world.Divided division) (session : Uuid) :
    world.Divided (division.enroll session) := by
  have hmore {id : Uuid} (hmem : id ∈ division.sessions) : id ∈ division.sessions ++ [session] :=
    List.mem_append_left _ hmem
  exact ⟨hdivided.outage_eq, hdivided.ordered,
    ⟨fun id race hfound => (hdivided.stored.race id race hfound).imp_left (And.imp_right hmore),
      hdivided.stored.samples⟩,
    fun event hmem => (hdivided.announced event hmem).imp_left hmore, hdivided.known⟩

theorem Divided.lose (hdivided : world.Divided division) (session : Uuid) :
    world.Divided (division.lose session) :=
  (hdivided.swap.enroll session).swap

/-- No event is about a session that nobody had. -/
theorem Part.enroll {selection : Selection} {draws : Draws} {session : Uuid}
    (hshares : Part selection draws division whole part) (hdivided : whole.Divided division)
    (hnew : session ∉ division.sessions ∧ session ∉ division.strangers) :
    Part selection draws (division.enroll session) whole part := by
  refine { hshares with events_eq := ?_ }
  rw [hshares.events_eq]
  apply List.filter_congr
  intro event hmem
  have hdifferent : event.race.sessionId ≠ session := by
    rintro rfl
    rcases hdivided.announced event hmem with hmine | htheirs
    · exact hnew.1 hmine
    · exact hnew.2 htheirs
  rw [Bool.eq_iff_iff]
  simp [Division.announces, Division.enroll, hdifferent]

end World

end RaceIngest
