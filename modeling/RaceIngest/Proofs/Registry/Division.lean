import RaceIngest.Proofs.Registry.Share
import RaceIngest.Proofs.Session.Isolation

/-!
# Sessions of one endpoint among others

A `Division` of a service follows the endpoints of its tasks: the sessions of one endpoint and the
races that were drawn for them are on the one side, all others are on the other. Every task keeps to
the races of its side.

What the one side has of a service is a service again: the share of the endpoint in the registry,
and the part of the world. Whatever happens to the whole either happens to the part as well, or it
leaves the part as it is; `Service.Follows` says so of one step, together with what the step draws
from the supplies.

## Main definitions

* `Service.Divided`, `Service.Part`, `Service.Follows`.

## Main statements

* `Service.follows_step`: a step of a task of the endpoint is one of the part,
* `Service.follows_step_of_foreign`: a step of another task leaves the part,
* `Service.follows_opened`: so does opening a session.
-/

namespace RaceIngest

/-- The races of the side that a task is on. -/
def Division.racesOf (division : Division) (endpoint : String) (task : Task) : Set Uuid :=
  if task.endpoint = endpoint then division.owned else division.foreign

theorem Division.racesOf_own {division : Division} {endpoint : String} {task : Task}
    (hown : task.endpoint = endpoint) : division.racesOf endpoint task = division.owned :=
  if_pos hown

theorem Division.racesOf_other {division : Division} {endpoint : String} {task : Task}
    (hother : task.endpoint ≠ endpoint) : division.racesOf endpoint task = division.foreign :=
  if_neg hother

/-- The identifiers of the sessions that were opened for an endpoint. -/
def Registry.sessionsOf (registry : Registry) (endpoint : String) : List Uuid :=
  (registry.share endpoint).tasks.map (·.session.id)

/-- The identifiers of the sessions that were opened for other endpoints. -/
def Registry.strangersTo (registry : Registry) (endpoint : String) : List Uuid :=
  (registry.tasks.filter (·.endpoint != endpoint)).map (·.session.id)

namespace Registry

variable {registry : Registry} {endpoint : String} {division : Division} {sessionIds : Nat → Uuid}
  {id : TaskId} {task new : Task}

/-- The sessions are divided between an endpoint and the others, and every task keeps to the races
of its side. -/
structure Divided (endpoint : String) (division : Division) (sessionIds : Nat → Uuid)
    (registry : Registry) : Prop where
  sessions_eq : division.sessions = registry.sessionsOf endpoint
  strangers_eq : division.strangers = registry.strangersTo endpoint
  within : ∀ id task, registry.task? id = some task →
    task.Within (division.racesOf endpoint task) (sessionIds id)

/-- The session of a task is one of its side. -/
theorem Divided.session_mem (hdivided : registry.Divided endpoint division sessionIds)
    (hfound : registry.task? id = some task) :
    task.endpoint = endpoint ∧ sessionIds id ∈ division.sessions ∨
      task.endpoint ≠ endpoint ∧ sessionIds id ∈ division.strangers := by
  have hsame := (hdivided.within id task hfound).session.id_eq
  have hmem : task ∈ registry.tasks := List.mem_of_getElem? hfound
  rw [← hsame, hdivided.sessions_eq, hdivided.strangers_eq]
  by_cases hown : task.endpoint = endpoint
  · have hmine : task ∈ (registry.share endpoint).tasks :=
      List.mem_filter.mpr ⟨hmem, by simpa using hown⟩
    exact .inl ⟨hown, List.mem_map_of_mem hmine⟩
  · have htheirs : task ∈ registry.tasks.filter (·.endpoint != endpoint) :=
      List.mem_filter.mpr ⟨hmem, by simpa using hown⟩
    exact .inr ⟨hown, List.mem_map_of_mem htheirs⟩

/-- Every session of a side is that of a task. -/
theorem Divided.exists_task (hdivided : registry.Divided endpoint division sessionIds)
    {session : Uuid} (hknown : session ∈ division.sessions ∨ session ∈ division.strangers) :
    ∃ id < registry.tasks.length, sessionIds id = session := by
  have hlisted {kind : Task → Bool}
      (hmem : session ∈ (registry.tasks.filter kind).map (·.session.id)) :
      ∃ id < registry.tasks.length, sessionIds id = session := by
    obtain ⟨task, hfiltered, rfl⟩ := List.mem_map.mp hmem
    obtain ⟨id, hbound, hfound⟩ := List.getElem_of_mem (List.mem_filter.mp hfiltered).1
    have hhere : registry.task? id = some task := List.getElem?_eq_some_iff.mpr ⟨hbound, hfound⟩
    exact ⟨id, hbound, (hdivided.within id task hhere).session.id_eq.symm⟩
  rcases hknown with hmine | htheirs
  · exact hlisted (hdivided.sessions_eq ▸ hmine)
  · exact hlisted (hdivided.strangers_eq ▸ htheirs)

/-- The sessions of some tasks depend on the endpoints and the identifiers only. -/
theorem sessions_setTask (hfound : registry.task? id = some task)
    (hplace : new.endpoint = task.endpoint) (hsame : new.session.id = task.session.id)
    (kind : String → Bool) :
    ((registry.setTask id new).tasks.filter (kind ·.endpoint)).map (·.session.id) =
      (registry.tasks.filter (kind ·.endpoint)).map (·.session.id) := by
  have hsorted : ∀ tasks : List Task, (tasks.filter (kind ·.endpoint)).map (·.session.id) =
      ((tasks.map fun task => (task.endpoint, task.session.id)).filter (kind ·.1)).map (·.2) := by
    intro tasks
    rw [List.filter_map, List.map_map]
    rfl
  have htags : ((registry.tasks.set id new).map fun task => (task.endpoint, task.session.id)) =
      registry.tasks.map fun task => (task.endpoint, task.session.id) :=
    map_set_of_eq hfound (by rw [hplace, hsame])
  show ((registry.tasks.set id new).filter _).map _ = _
  rw [hsorted, hsorted, htags]

/-- A task may change and keep to its races. -/
theorem Divided.setTask (hdivided : registry.Divided endpoint division sessionIds)
    (hfound : registry.task? id = some task) (hplace : new.endpoint = task.endpoint)
    (hwithin : new.Within (division.racesOf endpoint task) (sessionIds id)) :
    (registry.setTask id new).Divided endpoint division sessionIds := by
  have hsame : new.session.id = task.session.id :=
    hwithin.session.id_eq.trans (hdivided.within id task hfound).session.id_eq.symm
  constructor
  case sessions_eq =>
    rw [hdivided.sessions_eq]
    exact (sessions_setTask hfound hplace hsame (· == endpoint)).symm
  case strangers_eq =>
    rw [hdivided.strangers_eq]
    exact (sessions_setTask hfound hplace hsame (· != endpoint)).symm
  case within =>
    intro other changed hfoundOther
    rcases getElem?_set_cases hfoundOther with ⟨rfl, rfl⟩ | ⟨-, hrest⟩
    · unfold Division.racesOf at hwithin ⊢
      rw [hplace]
      exact hwithin
    · exact hdivided.within other changed hrest

/-- The sides may get more races. -/
theorem Divided.mono {wider : Division} (hdivided : registry.Divided endpoint division sessionIds)
    (hsessions : wider.sessions = division.sessions)
    (hstrangers : wider.strangers = division.strangers)
    (hwide : ∀ task, division.racesOf endpoint task ⊆ wider.racesOf endpoint task) :
    registry.Divided endpoint wider sessionIds :=
  ⟨hsessions.trans hdivided.sessions_eq, hstrangers.trans hdivided.strangers_eq,
    fun id task hfound => (hdivided.within id task hfound).mono (hwide task)⟩

end Registry

/-- The task at another stage. -/
def Task.atStage (task : Task) (stage : Stage) : Task := { task with stage }

namespace Service

variable {endpoint : String} {draws : Draws} {division : Division} {selection : Selection}
  {whole part after : Service MemoryStore} {id : TaskId} {task new : Task}

/-- Sessions and races are divided between an endpoint and the others, and what was drawn for the
endpoint was drawn from the supplies of the service. -/
structure Divided (endpoint : String) (draws : Draws) (division : Division)
    (service : Service MemoryStore) : Prop where
  world : service.world.Divided division
  apart : division.Apart
  registry : service.registry.Divided endpoint division service.sessionIds
  fit : draws.Fit service.world.read service.world.issued service.registry.tasks.length
  opened_eq : (service.registry.share endpoint).tasks.length = draws.sessions.length

/-- One service is what an endpoint has of another. -/
structure Part (endpoint : String) (selection : Selection) (draws : Draws) (division : Division)
    (whole part : Service MemoryStore) : Prop where
  registry_eq : part.registry = whole.registry.share endpoint
  sessionIds_eq : part.sessionIds = whole.sessionIds ∘ selection.sessions
  world : World.Part selection draws division whole.world part.world

/-- The whole becomes what is told, whatever was drawn, and every part of it that goes on as told
becomes its part. -/
def Follows (endpoint : String) (draws : Draws) (division : Division)
    (whole after : Service MemoryStore)
    (goesOn : Service MemoryStore → Option (Service MemoryStore)) : Prop :=
  ∃ draws' division', draws.Begins draws' ∧ after.Divided endpoint draws' division' ∧
    ∀ selection part, selection.Picks draws' → Part endpoint selection draws division whole part →
      ∃ part', goesOn part = some part' ∧ Part endpoint selection draws' division' after part'

/-- Nothing is drawn, and nothing changes sides. -/
theorem Follows.of_same {goesOn : Service MemoryStore → Option (Service MemoryStore)}
    (hdivided : after.Divided endpoint draws division)
    (hgoes : ∀ selection part, Part endpoint selection draws division whole part →
      ∃ part', goesOn part = some part' ∧ Part endpoint selection draws division after part') :
    Follows endpoint draws division whole after goesOn :=
  ⟨draws, division, .refl draws, hdivided, fun selection part _ => hgoes selection part⟩

/-- Nothing happens, and the part does nothing. -/
theorem Follows.rests (hdivided : whole.Divided endpoint draws division) :
    Follows endpoint draws division whole whole some :=
  .of_same hdivided fun _ part hshares => ⟨part, rfl, hshares⟩

/-! ## Changes of one task -/

/-- The service with a task changed. -/
def setTask (service : Service MemoryStore) (id : TaskId) (task : Task) : Service MemoryStore :=
  { service with registry := service.registry.setTask id task }

theorem length_share_setTask (registry : Registry) (hfound : registry.task? id = some task)
    (hplace : new.endpoint = task.endpoint) :
    ((registry.setTask id new).share endpoint).tasks.length =
      (registry.share endpoint).tasks.length := by
  by_cases hown : task.endpoint = endpoint
  · rw [Registry.share_setTask hfound hown hplace]
    exact List.length_set
  · have hforeign : registry.endpointOf? id ≠ some endpoint := fun hhere => by
      obtain ⟨other, hfoundOther, hmine⟩ := Registry.endpointOf?_eq_some_iff.mp hhere
      rw [hfound, Option.some.injEq] at hfoundOther
      exact hown (hfoundOther ▸ hmine)
    rw [Registry.share_setTask_of_ne hfound hforeign hplace]

/-- A task that keeps to its races may change. -/
theorem Divided.setTask (hdivided : whole.Divided endpoint draws division)
    (hfound : whole.registry.task? id = some task) (hplace : new.endpoint = task.endpoint)
    (hwithin : ∀ owned session, task.Within owned session → new.Within owned session) :
    (whole.setTask id new).Divided endpoint draws division where
  world := hdivided.world
  apart := hdivided.apart
  registry := hdivided.registry.setTask hfound hplace
    (hwithin _ _ (hdivided.registry.within id task hfound))
  fit := by
    show draws.Fit _ _ (whole.registry.tasks.set id new).length
    rw [List.length_set]
    exact hdivided.fit
  opened_eq := (length_share_setTask whole.registry hfound hplace).trans hdivided.opened_eq

/-- A service keeps its division when its registry keeps its tasks. -/
theorem Divided.of_tasks (hdivided : whole.Divided endpoint draws division) {registry : Registry}
    (hsame : registry.tasks = whole.registry.tasks) :
    { whole with registry }.Divided endpoint draws division := by
  obtain ⟨hworld, hapart, htasks, hfit, hopened⟩ := hdivided
  unfold Registry.share at hopened
  refine ⟨hworld, hapart, ⟨?_, ?_, ?_⟩, ?_, ?_⟩
  · rw [htasks.sessions_eq]
    unfold Registry.sessionsOf Registry.share
    rw [hsame]
  · rw [htasks.strangers_eq]
    unfold Registry.strangersTo
    rw [hsame]
  · unfold Registry.task?
    rw [hsame]
    exact htasks.within
  · rw [hsame]
    exact hfit
  · unfold Registry.share
    rw [hsame]
    exact hopened

/-- A task of the endpoint changes in the part as well. -/
theorem Part.setTask (hshares : Part endpoint selection draws division whole part)
    (hfound : whole.registry.task? id = some task) (hown : task.endpoint = endpoint)
    (hplace : new.endpoint = task.endpoint) :
    Part endpoint selection draws division (whole.setTask id new)
      (part.setTask (whole.registry.rank endpoint id) new) := by
  refine { hshares with registry_eq := ?_ }
  show part.registry.setTask _ new = (whole.registry.setTask id new).share endpoint
  rw [hshares.registry_eq, Registry.share_setTask hfound hown hplace]

/-- A task of another endpoint changes without the part. -/
theorem Part.setTask_of_foreign (hshares : Part endpoint selection draws division whole part)
    (hfound : whole.registry.task? id = some task)
    (hforeign : whole.registry.endpointOf? id ≠ some endpoint)
    (hplace : new.endpoint = task.endpoint) :
    Part endpoint selection draws division (whole.setTask id new) part := by
  refine { hshares with registry_eq := ?_ }
  show part.registry = (whole.registry.setTask id new).share endpoint
  rw [hshares.registry_eq, Registry.share_setTask_of_ne hfound hforeign hplace]

/-- A task of the endpoint is found in the part. -/
theorem Part.task? (hshares : Part endpoint selection draws division whole part)
    (hfound : whole.registry.task? id = some task) (hown : task.endpoint = endpoint) :
    part.registry.task? (whole.registry.rank endpoint id) = some task := by
  rw [hshares.registry_eq]
  exact Registry.task?_share hfound hown

/-! ## Steps that touch only the task -/

/-- A change of tasks that keeps their endpoints and their races. -/
structure Keeps (change : Task → Option Task) : Prop where
  endpoint : ∀ task after, change task = some after → after.endpoint = task.endpoint
  within : ∀ task after, change task = some after →
    ∀ owned session, task.Within owned session → after.Within owned session

theorem keeps_of_turn (interval : Duration) (step : TaskStep) {change : Task → Option Task}
    {operation : Task → Option Operation} (hasks : step ≠ .complete)
    (hturn : ∀ task after, change task = some after →
      task.Turn interval step (operation task) after) : Keeps change :=
  ⟨fun task after hchanged => (hturn task after hchanged).endpoint_eq,
    fun task after hchanged _ _ hwithin => (hturn task after hchanged).within hasks hwithin⟩

theorem onTask_eq_some {service after : Service MemoryStore} {change : Task → Option Task}
    (hstepped : step?.onTask service id change = some after) :
    ∃ task new, service.registry.task? id = some task ∧ change task = some new ∧
      after = service.setTask id new := by
  obtain ⟨registry, hchanged, rfl⟩ := Option.map_eq_some_iff.mp hstepped
  obtain ⟨new, hbound, rfl⟩ := Option.map_eq_some_iff.mp hchanged
  obtain ⟨task, hfound, htaken⟩ := Option.bind_eq_some_iff.mp hbound
  exact ⟨task, new, hfound, htaken, rfl⟩

theorem onTask_of_task? {service : Service MemoryStore} {change : Task → Option Task}
    (hfound : service.registry.task? id = some task) (htaken : change task = some new) :
    step?.onTask service id change = some (service.setTask id new) := by
  unfold step?.onTask Registry.stepTask?
  rw [hfound, Option.bind_some, htaken]
  rfl

theorem follows_onTask (change : Duration → Task → Option Task)
    (hdivided : whole.Divided endpoint draws division)
    (hown : whole.registry.endpointOf? id = some endpoint)
    (hkeeps : Keeps (change whole.registry.interval))
    (hstepped : step?.onTask whole id (change whole.registry.interval) = some after) :
    Follows endpoint draws division whole after fun part =>
      step?.onTask part (whole.registry.rank endpoint id) (change part.registry.interval) := by
  obtain ⟨task, new, hfound, htaken, rfl⟩ := onTask_eq_some hstepped
  obtain ⟨same, hfound', hhere⟩ := Registry.endpointOf?_eq_some_iff.mp hown
  rw [hfound, Option.some.injEq] at hfound'
  subst hfound'
  have hplace := hkeeps.endpoint task new htaken
  apply Follows.of_same
  · exact hdivided.setTask hfound hplace (hkeeps.within task new htaken)
  · intro selection part hshares
    have hinterval : part.registry.interval = whole.registry.interval := by
      rw [hshares.registry_eq]
      rfl
    refine ⟨_, onTask_of_task? (hshares.task? hfound hhere) ?_, hshares.setTask hfound hhere hplace⟩
    rw [hinterval]
    exact htaken

theorem follows_onTask_of_foreign {change : Task → Option Task}
    (hdivided : whole.Divided endpoint draws division)
    (hforeign : whole.registry.endpointOf? id ≠ some endpoint) (hkeeps : Keeps change)
    (hstepped : step?.onTask whole id change = some after) :
    Follows endpoint draws division whole after some := by
  obtain ⟨task, new, hfound, htaken, rfl⟩ := onTask_eq_some hstepped
  have hplace := hkeeps.endpoint task new htaken
  apply Follows.of_same
  · exact hdivided.setTask hfound hplace (hkeeps.within task new htaken)
  · intro selection part hshares
    exact ⟨part, rfl, hshares.setTask_of_foreign hfound hforeign hplace⟩

/-! ## Unregistering -/

theorem keeps_unregister : Keeps Task.unregister? := by
  have hstage : ∀ task after : Task, task.unregister? = some after →
      after = { task with stage := .unregistered } := by
    intro task after hgone
    unfold Task.unregister? at hgone
    split at hgone
    · exact (Option.some.inj hgone).symm
    · cases hgone
  refine ⟨fun task _ => task.endpoint_of_unregister?, ?_⟩
  intro task after hgone owned session hwithin
  rw [hstage task after hgone]
  exact .of_session hwithin.session nofun

theorem unregister?_eq_some {service after : Service MemoryStore}
    (hgone : (service.registry.unregister? id).map ({ service with registry := · }) = some after) :
    ∃ task new, service.registry.task? id = some task ∧ task.unregister? = some new ∧
      after =
        { service with registry := service.registry.without task.endpoint id }.setTask id new := by
  obtain ⟨registry, hunregistered, rfl⟩ := Option.map_eq_some_iff.mp hgone
  cases hfound : service.registry.task? id with
  | none =>
      unfold Registry.unregister? at hunregistered
      rw [hfound] at hunregistered
      cases hunregistered
  | some task =>
      rw [Registry.unregister?_eq hfound] at hunregistered
      obtain ⟨new, hbound, rfl⟩ := Option.map_eq_some_iff.mp hunregistered
      obtain ⟨other, hfoundOther, htaken⟩ := Option.bind_eq_some_iff.mp hbound
      have hsame : task = other := Option.some.inj (hfound.symm.trans hfoundOther)
      exact ⟨task, new, rfl, hsame ▸ htaken, rfl⟩

theorem divided_of_unregister (hdivided : whole.Divided endpoint draws division)
    (hgone : (whole.registry.unregister? id).map ({ whole with registry := · }) = some after) :
    after.Divided endpoint draws division := by
  obtain ⟨task, new, hfound, htaken, rfl⟩ := unregister?_eq_some hgone
  have hkept : { whole with registry := whole.registry.without task.endpoint id }.Divided
      endpoint draws division := hdivided.of_tasks rfl
  exact hkept.setTask hfound (keeps_unregister.endpoint task new htaken)
    (keeps_unregister.within task new htaken)

theorem follows_unregister (hdivided : whole.Divided endpoint draws division)
    (hplaced : whole.registry.Placed) (hown : whole.registry.endpointOf? id = some endpoint)
    (hgone : (whole.registry.unregister? id).map ({ whole with registry := · }) = some after) :
    Follows endpoint draws division whole after fun part =>
      (part.registry.unregister? (whole.registry.rank endpoint id)).map
        ({ part with registry := · }) := by
  apply Follows.of_same (divided_of_unregister hdivided hgone)
  intro selection part hshares
  obtain ⟨registry, hunregistered, rfl⟩ := Option.map_eq_some_iff.mp hgone
  refine ⟨{ part with registry := registry.share endpoint }, ?_,
    { hshares with registry_eq := rfl }⟩
  rw [hshares.registry_eq, Registry.unregister?_share hplaced hown, hunregistered]
  rfl

theorem follows_unregister_of_foreign (hdivided : whole.Divided endpoint draws division)
    (hforeign : whole.registry.endpointOf? id ≠ some endpoint)
    (hgone : (whole.registry.unregister? id).map ({ whole with registry := · }) = some after) :
    Follows endpoint draws division whole after some := by
  apply Follows.of_same (divided_of_unregister hdivided hgone)
  intro selection part hshares
  obtain ⟨registry, hunregistered, rfl⟩ := Option.map_eq_some_iff.mp hgone
  refine ⟨part, rfl, { hshares with registry_eq := ?_ }⟩
  rw [hshares.registry_eq]
  exact (Registry.share_of_unregister? hunregistered hforeign).symm

/-! ## Requests -/

/-- The service with another world. -/
def withWorld (service : Service MemoryStore) (world : World MemoryStore) : Service MemoryStore :=
  { service with world }

theorem endpoint_atStage (task : Task) (stage : Stage) :
    (task.atStage stage).endpoint = task.endpoint := rfl

/-- A task that is busy with a request, which was called or not. -/
structure Asks (service : Service MemoryStore) (id : TaskId) (task : Task) (work : Work)
    (request : Request) (next : request.Answer → Script Session) (fate : Option Bool) : Prop where
  found : service.registry.task? id = some task
  stage : task.stage = .busy work (.ask request next) fate

variable {work : Work} {request : Request} {next : request.Answer → Script Session}
  {fate : Option Bool} {fails : Bool}

theorem call?_eq_some {service after : Service MemoryStore}
    (hcalled : service.call? id = some after) :
    ∃ task work request next, service.Asks id task work request next none ∧
      after = (service.setTask id (task.atStage
        (.busy work (.ask request next) (some (service.world.call request).1)))).withWorld
          (service.world.call request).2 := by
  unfold call? at hcalled
  split at hcalled
  · cases hcalled
  · rename_i task hfound
    split at hcalled
    · rename_i work request next hstage
      exact ⟨task, work, request, next, ⟨hfound, hstage⟩, (Option.some.inj hcalled).symm⟩
    · cases hcalled

theorem Asks.call? {service : Service MemoryStore}
    (hasks : service.Asks id task work request next none) :
    service.call? id = some ((service.setTask id (task.atStage
      (.busy work (.ask request next) (some (service.world.call request).1)))).withWorld
        (service.world.call request).2) := by
  unfold Service.call?
  rw [hasks.found]
  simp only [hasks.stage]
  rfl

theorem complete?_eq_some {service after : Service MemoryStore}
    (hcompleted : service.complete? id = some after) :
    ∃ task work request next fails, service.Asks id task work request next (some fails) ∧
      after = (service.setTask id (task.atStage
        (.busy work (next (service.world.act fails request).1) none))).withWorld
          (service.world.act fails request).2 := by
  unfold complete? at hcompleted
  split at hcompleted
  · cases hcompleted
  · rename_i task hfound
    split at hcompleted
    · rename_i work request next fails hstage
      exact ⟨task, work, request, next, fails, ⟨hfound, hstage⟩, (Option.some.inj hcompleted).symm⟩
    · cases hcompleted

theorem Asks.complete? {service : Service MemoryStore}
    (hasks : service.Asks id task work request next (some fails)) :
    service.complete? id = some ((service.setTask id (task.atStage
      (.busy work (next (service.world.act fails request).1) none))).withWorld
        (service.world.act fails request).2) := by
  unfold Service.complete?
  rw [hasks.found]
  simp only [hasks.stage]
  rfl

/-- A task of the endpoint asks the same in the part. -/
theorem Part.asks (hshares : Part endpoint selection draws division whole part)
    (hasks : whole.Asks id task work request next fate) (hown : task.endpoint = endpoint) :
    part.Asks (whole.registry.rank endpoint id) task work request next fate :=
  ⟨hshares.task? hasks.found hown, hasks.stage⟩

/-- A request is called, and the task still keeps to its races. -/
theorem within_called (hstage : task.stage = .busy work (.ask request next) none)
    (fate : Option Bool) (owned : Set Uuid) (session : Uuid) (hwithin : task.Within owned session) :
    (task.atStage (.busy work (.ask request next) fate)).Within owned session := by
  refine ⟨hwithin.session, fun _ _ _ hsame => ?_⟩
  unfold Task.atStage at hsame
  cases hsame
  exact hwithin.script _ _ _ hstage

theorem divided_of_call (hdivided : whole.Divided endpoint draws division)
    (hasks : whole.Asks id task work request next none) (fate : Option Bool) :
    ((whole.setTask id (task.atStage (.busy work (.ask request next) fate))).withWorld
      (whole.world.call request).2).Divided endpoint draws division := by
  have hkept := hdivided.setTask hasks.found (endpoint_atStage task _)
    (within_called hasks.stage fate)
  obtain ⟨calls, called, hsame⟩ := whole.world.exists_call_eq request
  refine { hkept with world := hdivided.world.call request, fit := ?_ }
  show draws.Fit (whole.world.call request).2.read (whole.world.call request).2.issued _
  rw [hsame]
  exact hkept.fit

theorem follows_call (hdivided : whole.Divided endpoint draws division)
    (hown : whole.registry.endpointOf? id = some endpoint) (hcalled : whole.call? id = some after) :
    Follows endpoint draws division whole after (·.call? (whole.registry.rank endpoint id)) := by
  obtain ⟨task, work, request, next, hasks, rfl⟩ := call?_eq_some hcalled
  obtain ⟨same, hfound, hhere⟩ := Registry.endpointOf?_eq_some_iff.mp hown
  rw [hasks.found, Option.some.injEq] at hfound
  subst hfound
  apply Follows.of_same (divided_of_call hdivided hasks _)
  intro selection part hshares
  have hanswer : (part.world.call request).1 = (whole.world.call request).1 :=
    (World.call_fst_of_outage hshares.world.outage_eq request).trans
      (World.call_fst_of_outage hdivided.world.outage_eq request).symm
  refine ⟨_, (hshares.asks hasks hhere).call?, ?_⟩
  rw [hanswer]
  exact { hshares.setTask hasks.found hhere (endpoint_atStage task _) with
    world := hshares.world.call request }

theorem follows_call_of_foreign (hdivided : whole.Divided endpoint draws division)
    (hforeign : whole.registry.endpointOf? id ≠ some endpoint)
    (hcalled : whole.call? id = some after) :
    Follows endpoint draws division whole after some := by
  obtain ⟨task, work, request, next, hasks, rfl⟩ := call?_eq_some hcalled
  apply Follows.of_same (divided_of_call hdivided hasks _)
  intro selection part hshares
  exact ⟨part, rfl, { hshares.setTask_of_foreign hasks.found hforeign (endpoint_atStage task _) with
    world := hshares.world.call_of_foreign request }⟩

/-! ## Answers -/

theorem racesOf_grant_subset (division : Division) (race : Uuid) (task : Task) :
    division.racesOf endpoint task ⊆ (division.grant race).racesOf endpoint task := by
  unfold Division.racesOf
  split
  · exact Set.subset_insert race division.owned
  · exact subset_refl _

theorem racesOf_concede_subset (division : Division) (race : Uuid) (task : Task) :
    division.racesOf endpoint task ⊆ (division.concede race).racesOf endpoint task := by
  unfold Division.racesOf
  split
  · exact subset_refl _
  · exact Set.subset_insert race division.foreign

/-- Sides get no less by an answer, and a task gets what its request draws. -/
structure Widens (endpoint : String) (division wider : Division) (task : Task) (request : Request)
    (reply : request.Answer) : Prop where
  sessions_eq : wider.sessions = division.sessions
  strangers_eq : wider.strangers = division.strangers
  wide : ∀ task, division.racesOf endpoint task ⊆ wider.racesOf endpoint task
  apart : wider.Apart
  granted : request.Grants (wider.racesOf endpoint task) reply

theorem widens_granting {world : World MemoryStore} (hdivided : world.Divided division)
    (hapart : division.Apart) (hown : task.endpoint = endpoint)
    (hdistinct : (world.act fails request).2.Distinct) :
    Widens endpoint division (world.granting division request) task request
      (world.act fails request).1 := by
  cases request with
  | freshId =>
      refine ⟨rfl, rfl, racesOf_grant_subset division _, ?_, ?_⟩
      · exact hapart.grant (hdivided.not_knows fails hdistinct)
      · show world.ids world.issued ∈
          (division.grant (world.ids world.issued)).racesOf endpoint task
        rw [Division.racesOf_own hown]
        exact Set.mem_insert _ _
  | insert | upsert | last | publish | clock =>
      exact ⟨rfl, rfl, fun _ => subset_refl _, hapart, trivial⟩

theorem widens_conceding {world : World MemoryStore} (hdivided : world.Divided division)
    (hapart : division.Apart) (hother : task.endpoint ≠ endpoint)
    (hdistinct : (world.act fails request).2.Distinct) :
    Widens endpoint division (world.conceding division request) task request
      (world.act fails request).1 := by
  cases request with
  | freshId =>
      refine ⟨rfl, rfl, racesOf_concede_subset division _, ?_, ?_⟩
      · exact hapart.concede (hdivided.not_knows fails hdistinct)
      · show world.ids world.issued ∈
          (division.concede (world.ids world.issued)).racesOf endpoint task
        rw [Division.racesOf_other hother]
        exact Set.mem_insert _ _
  | insert | upsert | last | publish | clock =>
      exact ⟨rfl, rfl, fun _ => subset_refl _, hapart, trivial⟩

/-- The service after a task was answered. -/
def answered (service : Service MemoryStore) (id : TaskId) (task : Task) (work : Work)
    (request : Request) (next : request.Answer → Script Session) (fails : Bool) :
    Service MemoryStore :=
  (service.setTask id (task.atStage
    (.busy work (next (service.world.act fails request).1) none))).withWorld
      (service.world.act fails request).2

/-- A task that is answered keeps to its races, which may have become more. -/
theorem Divided.answered {wider : Division} {draws' : Draws}
    (hdivided : whole.Divided endpoint draws division)
    (hasks : whole.Asks id task work request next (some fails))
    (hwidens : Widens endpoint division wider task request (whole.world.act fails request).1)
    (hworld : (whole.world.act fails request).2.Divided wider)
    (hfit : draws'.Fit (whole.world.act fails request).2.read
      (whole.world.act fails request).2.issued whole.registry.tasks.length)
    (hsame : draws'.sessions = draws.sessions) :
    (whole.answered id task work request next fails).Divided endpoint draws' wider where
  world := hworld
  apart := hwidens.apart
  registry := by
    have hreply := (hdivided.registry.within id task hasks.found).reply hasks.stage
      (hwidens.wide task) hwidens.granted
    have htasks := hdivided.registry.mono hwidens.sessions_eq hwidens.strangers_eq hwidens.wide
    exact htasks.setTask hasks.found (endpoint_atStage task _) hreply
  fit := by
    show draws'.Fit _ _ (whole.registry.tasks.set id _).length
    rw [List.length_set]
    exact hfit
  opened_eq := by
    rw [hsame, ← hdivided.opened_eq]
    exact length_share_setTask whole.registry hasks.found (endpoint_atStage task _)

theorem sessions_drawing (world : World MemoryStore) (draws : Draws) (request : Request) :
    (world.drawing draws request).sessions = draws.sessions := by
  cases request <;> rfl

theorem follows_complete (hdivided : whole.Divided endpoint draws division)
    (hown : whole.registry.endpointOf? id = some endpoint)
    (hdistinct : after.world.Distinct) (hcompleted : whole.complete? id = some after) :
    Follows endpoint draws division whole after
      (·.complete? (whole.registry.rank endpoint id)) := by
  obtain ⟨task, work, request, next, fails, hasks, rfl⟩ := complete?_eq_some hcompleted
  obtain ⟨same, hfound, hhere⟩ := Registry.endpointOf?_eq_some_iff.mp hown
  rw [hasks.found, Option.some.injEq] at hfound
  subst hfound
  have hwithin := hdivided.registry.within id task hasks.found
  rw [Division.racesOf_own hhere] at hwithin
  have hnames := hwithin.request hasks.stage
  have hmine : whole.sessionIds id ∈ division.sessions :=
    (hdivided.registry.session_mem hasks.found).elim And.right fun htheirs => absurd hhere htheirs.1
  refine ⟨whole.world.drawing draws request, whole.world.granting division request,
    whole.world.begins_drawing draws request, ?_, ?_⟩
  · apply hdivided.answered hasks (widens_granting hdivided.world hdivided.apart hhere hdistinct)
    · exact hdivided.world.act hnames hmine fails
    · exact World.fit_drawing hdivided.fit request fails
    · exact sessions_drawing whole.world draws request
  · intro selection part hpicks hshares
    obtain ⟨hreply, hworld⟩ := hshares.world.act hdivided.world hnames hmine hpicks fails hdistinct
    refine ⟨_, (hshares.asks hasks hhere).complete?, ?_⟩
    rw [hreply]
    have hkept := hshares.setTask hasks.found hhere (endpoint_atStage task
      (.busy work (next (whole.world.act fails request).1) none))
    exact { hkept with world := hworld }

theorem follows_complete_of_foreign (hdivided : whole.Divided endpoint draws division)
    (hforeign : whole.registry.endpointOf? id ≠ some endpoint)
    (hdistinct : after.world.Distinct) (hcompleted : whole.complete? id = some after) :
    Follows endpoint draws division whole after some := by
  obtain ⟨task, work, request, next, fails, hasks, rfl⟩ := complete?_eq_some hcompleted
  have hother : task.endpoint ≠ endpoint := fun hhere =>
    hforeign (Registry.endpointOf?_eq_some_iff.mpr ⟨task, hasks.found, hhere⟩)
  have hwithin := hdivided.registry.within id task hasks.found
  rw [Division.racesOf_other hother] at hwithin
  have hnames := hwithin.request hasks.stage
  have hstranger : whole.sessionIds id ∈ division.strangers :=
    (hdivided.registry.session_mem hasks.found).elim (fun hown => absurd hown.1 hother) And.right
  have hlater := whole.world.le_act request fails
  refine ⟨draws, whole.world.conceding division request, .refl draws, ?_, ?_⟩
  · apply hdivided.answered hasks (widens_conceding hdivided.world hdivided.apart hother hdistinct)
    · exact hdivided.world.act_of_foreign hnames hstranger fails
    · exact hdivided.fit.mono hlater.1 hlater.2 (Nat.le_refl _)
    · rfl
  · intro selection part _ hshares
    have hkept := hshares.setTask_of_foreign hasks.found hforeign (endpoint_atStage task
      (.busy work (next (whole.world.act fails request).1) none))
    exact ⟨part, rfl, { hkept with
      world := hshares.world.act_of_foreign hdivided.world hdivided.apart hnames hstranger fails }⟩

/-! ## Steps of tasks -/

theorem keeps_start (interval : Duration) (now : Nat) : Keeps (Task.start? interval now) :=
  keeps_of_turn interval .start (by decide) fun _ _ hchanged => Task.turn_of_start hchanged

theorem keeps_tick (interval : Duration) (now : Nat) : Keeps (Task.tick? interval now) :=
  keeps_of_turn interval .tick (by decide) fun _ _ hchanged => Task.turn_of_tick hchanged

theorem keeps_leave : Keeps Task.leave? :=
  keeps_of_turn default .leave (by decide) fun _ _ hchanged => Task.turn_of_leave hchanged

theorem keeps_receive : Keeps Task.receive? :=
  keeps_of_turn default .receive (by decide) fun _ _ hchanged => Task.turn_of_receive hchanged

theorem keeps_closeQueue : Keeps Task.closeQueue? :=
  keeps_of_turn default .closeQueue (by decide) fun _ _ hchanged => Task.turn_of_closeQueue hchanged

theorem keeps_drain : Keeps Task.drain? :=
  keeps_of_turn default .drain (by decide) fun _ _ hchanged => Task.turn_of_drain hchanged

theorem keeps_conclude : Keeps Task.conclude? :=
  keeps_of_turn default .conclude (by decide) fun _ _ hchanged => Task.turn_of_conclude hchanged

theorem keeps_settle : Keeps Task.settle? :=
  keeps_of_turn default .settle (by decide) fun _ _ hchanged => Task.turn_of_settle hchanged

/-- A step of a task of the endpoint is one of the part. -/
theorem follows_step {now : Nat} {step : TaskStep}
    (hdivided : whole.Divided endpoint draws division) (hplaced : whole.registry.Placed)
    (hown : whole.registry.endpointOf? id = some endpoint) (hdistinct : after.world.Distinct)
    (hstepped : whole.step? now id step = some after) : Follows endpoint draws division whole after
      (·.step? now (whole.registry.rank endpoint id) step) := by
  cases step with
  | start => exact follows_onTask (Task.start? · now) hdivided hown (keeps_start _ now) hstepped
  | leave => exact follows_onTask (fun _ => Task.leave?) hdivided hown keeps_leave hstepped
  | receive => exact follows_onTask (fun _ => Task.receive?) hdivided hown keeps_receive hstepped
  | tick => exact follows_onTask (Task.tick? · now) hdivided hown (keeps_tick _ now) hstepped
  | closeQueue =>
      exact follows_onTask (fun _ => Task.closeQueue?) hdivided hown keeps_closeQueue hstepped
  | drain => exact follows_onTask (fun _ => Task.drain?) hdivided hown keeps_drain hstepped
  | conclude => exact follows_onTask (fun _ => Task.conclude?) hdivided hown keeps_conclude hstepped
  | settle => exact follows_onTask (fun _ => Task.settle?) hdivided hown keeps_settle hstepped
  | unregister => exact follows_unregister hdivided hplaced hown hstepped
  | call => exact follows_call hdivided hown hstepped
  | complete => exact follows_complete hdivided hown hdistinct hstepped

/-- A step of another task leaves the part. -/
theorem follows_step_of_foreign {now : Nat} {step : TaskStep}
    (hdivided : whole.Divided endpoint draws division)
    (hforeign : whole.registry.endpointOf? id ≠ some endpoint)
    (hdistinct : after.world.Distinct) (hstepped : whole.step? now id step = some after) :
    Follows endpoint draws division whole after some := by
  cases step with
  | start => exact follows_onTask_of_foreign hdivided hforeign (keeps_start _ now) hstepped
  | leave => exact follows_onTask_of_foreign hdivided hforeign keeps_leave hstepped
  | receive => exact follows_onTask_of_foreign hdivided hforeign keeps_receive hstepped
  | tick => exact follows_onTask_of_foreign hdivided hforeign (keeps_tick _ now) hstepped
  | closeQueue => exact follows_onTask_of_foreign hdivided hforeign keeps_closeQueue hstepped
  | drain => exact follows_onTask_of_foreign hdivided hforeign keeps_drain hstepped
  | conclude => exact follows_onTask_of_foreign hdivided hforeign keeps_conclude hstepped
  | settle => exact follows_onTask_of_foreign hdivided hforeign keeps_settle hstepped
  | unregister => exact follows_unregister_of_foreign hdivided hforeign hstepped
  | call => exact follows_call_of_foreign hdivided hforeign hstepped
  | complete => exact follows_complete_of_foreign hdivided hforeign hdistinct hstepped

/-! ## Changes of the registry -/

/-- The registry changes, and its share changes likewise. -/
theorem Follows.of_registry {registry : Registry} (change : Registry → Registry)
    (hdivided : { whole with registry }.Divided endpoint draws division)
    (hsame : registry.share endpoint = change (whole.registry.share endpoint)) :
    Follows endpoint draws division whole { whole with registry } fun part =>
      some { part with registry := change part.registry } := by
  apply Follows.of_same hdivided
  intro selection part hshares
  refine ⟨_, rfl, { hshares with registry_eq := ?_ }⟩
  show change part.registry = registry.share endpoint
  rw [hshares.registry_eq, hsame]

/-- The registry changes, and its share does not. -/
theorem Follows.of_share {registry : Registry}
    (hdivided : { whole with registry }.Divided endpoint draws division)
    (hsame : registry.share endpoint = whole.registry.share endpoint) :
    Follows endpoint draws division whole { whole with registry } some :=
  .of_registry id hdivided hsame

theorem divided_of_spawn (hdivided : whole.Divided endpoint draws division) (id : TaskId) :
    { whole with registry := whole.registry.spawn id }.Divided endpoint draws division := by
  rcases whole.registry.spawn_cases id with hrests | ⟨task, hfound, hstage, hspawned⟩
  · rw [hrests]
    exact hdivided
  · rw [hspawned]
    apply hdivided.setTask hfound (endpoint_atStage task .spawned)
    intro owned session hwithin
    exact .of_session hwithin.session nofun

theorem divided_of_cancel (hdivided : whole.Divided endpoint draws division) (id : TaskId) :
    { whole with registry := whole.registry.cancel id }.Divided endpoint draws division := by
  rcases whole.registry.cancel_cases id with hrests | ⟨task, hfound, hcancelled⟩
  · rw [hrests]
    exact hdivided
  · have hplace : { task with cancelled := true }.endpoint = task.endpoint := rfl
    rw [hcancelled]
    exact hdivided.setTask hfound hplace fun owned session hwithin =>
      ⟨hwithin.session, hwithin.script⟩

theorem divided_of_send (hdivided : whole.Divided endpoint draws division) (id : TaskId)
    (sample : Sample) :
    { whole with registry := (whole.registry.send id sample).2 }.Divided endpoint draws
      division := by
  unfold Registry.send
  cases hfound : whole.registry.task? id with
  | none => exact hdivided
  | some task =>
      have hplace :
          { task with queue := (task.queue.send sample).2 }.endpoint = task.endpoint := rfl
      exact hdivided.setTask hfound hplace fun owned session hwithin =>
        ⟨hwithin.session, hwithin.script⟩

/-! ## Sessions that are opened -/

/-- The identifiers that were given to races are distinct, and so are those of sessions. -/
structure Distinct (service : Service MemoryStore) : Prop where
  races : service.world.Distinct
  sessions : ∀ i < service.registry.tasks.length, ∀ j < service.registry.tasks.length,
    service.sessionIds i = service.sessionIds j → i = j

/-- The service after a session was opened. -/
def opened (service : Service MemoryStore) (opener : String) : Service MemoryStore :=
  { service with
    registry := service.registry.opened opener (service.sessionIds service.registry.tasks.length) }

theorem length_opened (service : Service MemoryStore) (opener : String) :
    (service.opened opener).registry.tasks.length = service.registry.tasks.length + 1 := by
  simp [Service.opened, Registry.opened]

/-- The session that is opened is new. -/
theorem Divided.new_session (hdivided : whole.Divided endpoint draws division) {opener : String}
    (hdistinct : (whole.opened opener).Distinct) :
    whole.sessionIds whole.registry.tasks.length ∉ division.sessions ∧
      whole.sessionIds whole.registry.tasks.length ∉ division.strangers := by
  have hlength := whole.length_opened opener
  have hunknown : ¬(whole.sessionIds whole.registry.tasks.length ∈ division.sessions ∨
      whole.sessionIds whole.registry.tasks.length ∈ division.strangers) := by
    intro hknown
    obtain ⟨id, hbefore, hsame⟩ := hdivided.registry.exists_task hknown
    have hequal := hdistinct.sessions id (by omega) whole.registry.tasks.length (by omega) hsame
    omega
  exact not_or.mp hunknown

/-- The tasks keep to their races when one more is opened. -/
theorem within_opened {wider : Division} (hdivided : whole.Divided endpoint draws division)
    (opener : String) (hwide : ∀ task, division.racesOf endpoint task = wider.racesOf endpoint task)
    (id : TaskId) (task : Task) (hfound : (whole.opened opener).registry.task? id = some task) :
    task.Within (wider.racesOf endpoint task) (whole.sessionIds id) := by
  rcases getElem?_concat_cases hfound with hold | ⟨rfl, rfl⟩
  · rw [← hwide]
    exact hdivided.registry.within id task hold
  · exact Task.within_newTask _ _ _ _

/-- The endpoint gets the session that is opened for it. -/
theorem Divided.opened (hdivided : whole.Divided endpoint draws division)
    (hplaced : whole.registry.Placed) (hdistinct : (whole.opened endpoint).Distinct) :
    (whole.opened endpoint).Divided endpoint
      { draws with sessions := draws.sessions ++ [whole.registry.tasks.length] }
      (division.enroll (whole.sessionIds whole.registry.tasks.length)) := by
  have hshare : (whole.opened endpoint).registry.share endpoint = _ :=
    Registry.share_opened hplaced (whole.sessionIds whole.registry.tasks.length)
  constructor
  case world => exact hdivided.world.enroll _
  case apart => exact hdivided.apart.enroll (hdivided.new_session hdistinct).2
  case registry =>
    refine ⟨?_, ?_, within_opened hdivided endpoint fun _ => rfl⟩
    · unfold Registry.sessionsOf
      rw [hshare]
      show division.sessions ++ [_] = ((whole.registry.share endpoint).tasks ++ [_]).map _
      rw [List.map_append, hdivided.registry.sessions_eq]
      rfl
    · show division.strangers = ((whole.registry.tasks ++ [_]).filter _).map _
      rw [hdivided.registry.strangers_eq, List.filter_append, List.map_append]
      simp [Registry.strangersTo, Registry.newTask]
  case fit =>
    rw [length_opened]
    exact ⟨hdivided.fit.readings, hdivided.fit.ids, hdivided.fit.sessions.concat⟩
  case opened_eq =>
    rw [hshare]
    simp [Registry.opened, hdivided.opened_eq]

/-- The others get the session that is opened for one of them. -/
theorem Divided.opened_of_foreign (hdivided : whole.Divided endpoint draws division)
    (hplaced : whole.registry.Placed) {opener : String} (hforeign : opener ≠ endpoint)
    (hdistinct : (whole.opened opener).Distinct) :
    (whole.opened opener).Divided endpoint draws
      (division.lose (whole.sessionIds whole.registry.tasks.length)) := by
  have hshare : (whole.opened opener).registry.share endpoint = _ :=
    Registry.share_opened_of_ne hplaced hforeign (whole.sessionIds whole.registry.tasks.length)
  constructor
  case world => exact hdivided.world.lose _
  case apart => exact hdivided.apart.lose (hdivided.new_session hdistinct).1
  case registry =>
    refine ⟨?_, ?_, within_opened hdivided opener fun _ => rfl⟩
    · unfold Registry.sessionsOf
      rw [hshare]
      exact hdivided.registry.sessions_eq
    · show division.strangers ++ [_] = ((whole.registry.tasks ++ [_]).filter _).map _
      rw [hdivided.registry.strangers_eq, List.filter_append, List.map_append]
      simp [Registry.strangersTo, Registry.newTask, hforeign]
  case fit =>
    rw [length_opened]
    exact hdivided.fit.mono (Nat.le_refl _) (Nat.le_refl _) (Nat.le_succ _)
  case opened_eq =>
    rw [hshare]
    exact hdivided.opened_eq

/-- A session that is opened for the endpoint is opened in the part, with the same identifier. -/
theorem follows_opened (hdivided : whole.Divided endpoint draws division)
    (hplaced : whole.registry.Placed) (hdistinct : (whole.opened endpoint).Distinct) :
    Follows endpoint draws division whole (whole.opened endpoint) fun part =>
      some (part.opened endpoint) := by
  have hbegins : draws.Begins
      { draws with sessions := draws.sessions ++ [whole.registry.tasks.length] } :=
    ⟨List.prefix_rfl, List.prefix_rfl, List.prefix_append _ _⟩
  refine ⟨_, _, hbegins, hdivided.opened hplaced hdistinct, ?_⟩
  intro selection part hpicks hshares
  have hworld := hshares.world.enroll hdivided.world (hdivided.new_session hdistinct)
  have hnumber : part.registry.tasks.length = draws.sessions.length := by
    rw [hshares.registry_eq]
    exact hdivided.opened_eq
  have hsession : part.sessionIds part.registry.tasks.length =
      whole.sessionIds whole.registry.tasks.length := by
    rw [hshares.sessionIds_eq, hnumber, Function.comp_apply]
    exact congrArg whole.sessionIds (hpicks.sessions draws.sessions.length _ (by simp))
  refine ⟨_, rfl, ?_, hshares.sessionIds_eq, { hworld with }⟩
  show part.registry.opened endpoint (part.sessionIds part.registry.tasks.length) = _
  rw [hsession, hshares.registry_eq]
  exact (Registry.share_opened hplaced _).symm

/-- A session that is opened for another endpoint is opened without the part. -/
theorem follows_opened_of_foreign (hdivided : whole.Divided endpoint draws division)
    (hplaced : whole.registry.Placed) {opener : String} (hforeign : opener ≠ endpoint)
    (hdistinct : (whole.opened opener).Distinct) :
    Follows endpoint draws division whole (whole.opened opener) some := by
  refine ⟨_, _, .refl draws, hdivided.opened_of_foreign hplaced hforeign hdistinct, ?_⟩
  intro selection part _ hshares
  refine ⟨part, rfl, ?_, hshares.sessionIds_eq, { hshares.world with }⟩
  rw [hshares.registry_eq]
  exact (Registry.share_opened_of_ne hplaced hforeign _).symm

end Service

end RaceIngest
