import Mathlib.Data.Set.Basic
import RaceIngest.Proofs.Registry.Traffic

/-!
# Sessions touch their own races only

Every race of a session bears the identifier of the session, and an identifier that was drawn for
it. So whatever a session is answered, its scripts name no race of anybody else: the races that they
put into the store and announce are their own, and they insert and ask for samples of such races
only.

`Script.Within owned` says so of a script that may name the identifiers in `owned`, a set that also
has what the script will draw. A task of a session keeps to the identifiers that were drawn for it
so far when its script keeps to every set that has these; the set grows with every identifier that
is drawn.

## Main definitions

* `Script.Within`, `Task.Within`.

## Main statements

* `Session.within_operation`: every operation on a session keeps to its races,
* `Task.Turn.within`, `Task.within_reply`: and so does its task, step by step.
-/

namespace RaceIngest

/-! ## Scripts -/

/-- The race is one of a session's, with one of the identifiers. -/
def Race.Within (owned : Set Uuid) (session : Uuid) (race : Race) : Prop :=
  race.id ∈ owned ∧ race.sessionId = session

/-- The races that a request names are a session's. -/
def Request.Within (owned : Set Uuid) (session : Uuid) : Request → Prop
  | .insert race _ => race.id ∈ owned
  | .upsert races => ∀ race ∈ races, race.Within owned session
  | .last race => race ∈ owned
  | .publish event => event.race.sessionId = session
  | .clock | .freshId => True

/-- A fresh identifier is one of those. -/
def Request.Grants (owned : Set Uuid) : (request : Request) → request.Answer → Prop
  | .freshId, id => id ∈ owned
  | _, _ => True

namespace Script

variable {α β : Type} {owned : Set Uuid} {session : Uuid} {holds : α → Prop}

/-- However it is answered, if with those fresh identifiers, the script names races of the session
only and ends as described. -/
def Within (owned : Set Uuid) (session : Uuid) (holds : α → Prop) : Script α → Prop
  | .done a => holds a
  | .ask request next => request.Within owned session ∧
      ∀ answer, request.Grants owned answer → (next answer).Within owned session holds

theorem Within.bind {after : β → Prop} {script : Script α} {next : α → Script β}
    (hfirst : script.Within owned session holds)
    (hsecond : ∀ a, holds a → (next a).Within owned session after) :
    (script >>= next).Within owned session after := by
  induction script with
  | done a => exact hsecond a hfirst
  | ask request rest ih =>
      exact ⟨hfirst.1, fun answer hgranted => ih answer (hfirst.2 answer hgranted)⟩

theorem within_upsert {races : List Race} (hown : ∀ race ∈ races, race.Within owned session) :
    (upsert races).Within owned session fun _ => True :=
  ⟨hown, fun _ _ => trivial⟩

theorem within_insert {race : Race} (hown : race.Within owned session) (samples : List Recorded) :
    (insert race samples).Within owned session fun _ => True :=
  ⟨hown.1, fun _ _ => trivial⟩

theorem within_publish {race : Race} (hown : race.Within owned session) (kind : EventKind) :
    (publish ⟨kind, race⟩).Within owned session fun _ => True :=
  ⟨hown.2, fun _ _ => trivial⟩

theorem within_clock : clock.Within owned session fun _ => True :=
  ⟨trivial, fun _ _ => trivial⟩

end Script

/-! ## Sessions -/

namespace Session

variable {owned : Set Uuid} {id : Uuid} {session : Session}

/-- The session has the identifier, and its open race is one of its own. -/
structure Within (owned : Set Uuid) (id : Uuid) (session : Session) : Prop where
  id_eq : session.id = id
  race : ∀ race, session.race = some race → race.Within owned id

theorem Within.mono {wider : Set Uuid} (hwithin : session.Within owned id) (hwide : owned ⊆ wider) :
    session.Within wider id :=
  ⟨hwithin.id_eq, fun race hrunning =>
    ⟨hwide (hwithin.race race hrunning).1, (hwithin.race race hrunning).2⟩⟩

/-- The session after its open race changed is the same session. -/
theorem Within.of_race {race : Race} (hown : race.Within owned id) (hsame : session.id = id)
    (hrunning : session.race = some race) : session.Within owned id :=
  ⟨hsame, fun other hcurrent => by
    rw [hrunning] at hcurrent
    exact Option.some.inj hcurrent ▸ hown⟩

theorem Within.of_closed (hsame : session.id = id) (hclosed : session.race = none) :
    session.Within owned id :=
  ⟨hsame, fun race hcurrent => by
    rw [hclosed] at hcurrent
    cases hcurrent⟩

theorem within_finished {race : Race} (hown : race.Within owned id) :
    (finished race).Within owned id (Race.Within owned id) := by
  refine ⟨hown.1, fun answer _ => ?_⟩
  cases answer with
  | ok last => exact hown
  | error failure => exact Script.within_clock.bind fun now _ => hown

theorem within_startRace (hsame : session.id = id) (sample : Sample) :
    (session.startRace sample).Within owned id (Race.Within owned id) :=
  ⟨trivial, fun _ hgranted => Script.within_clock.bind fun _ _ => ⟨hgranted, hsame⟩⟩

theorem within_checkpoint (hwithin : session.Within owned id) :
    session.checkpoint.Within owned id (Within owned id) := by
  unfold checkpoint
  split
  · exact hwithin
  · rename_i hmissing
    exact .of_closed hwithin.id_eq hmissing
  · rename_i last race _ hcurrent
    have hown : (race.update last.sample).Within owned id := hwithin.race race hcurrent
    refine (Script.within_upsert (List.forall_mem_singleton.mpr hown)).bind fun _ _ => ?_
    exact (Script.within_insert hown _).bind fun _ _ => .of_race hown hwithin.id_eq rfl

theorem within_openRace (hsame : session.id = id) (sample : Sample) :
    (session.openRace sample).Within owned id (Within owned id) := by
  refine (within_startRace hsame sample).bind fun race hown => ?_
  refine (Script.within_upsert (List.forall_mem_singleton.mpr hown)).bind fun _ _ => ?_
  exact (Script.within_publish hown _).bind fun _ _ => .of_race hown hsame rfl

theorem within_nextRace (hwithin : session.Within owned id) (sample : Sample) :
    (session.nextRace sample).Within owned id (Within owned id) := by
  refine (within_checkpoint hwithin).bind fun flushed hwithin => ?_
  split
  · exact hwithin
  · rename_i current hrunning
    refine (within_finished (hwithin.race current hrunning)).bind fun ended hclosed => ?_
    refine (within_startRace hwithin.id_eq sample).bind fun next hstarted => ?_
    have hboth : ∀ race ∈ [ended, next], race.Within owned id :=
      List.forall_mem_cons.mpr ⟨hclosed, List.forall_mem_singleton.mpr hstarted⟩
    refine (Script.within_upsert hboth).bind fun _ _ => ?_
    refine (Script.within_publish hclosed _).bind fun _ _ => ?_
    exact (Script.within_publish hstarted _).bind fun _ _ => .of_race hstarted hwithin.id_eq rfl

theorem within_pause (hwithin : session.Within owned id) :
    session.pause.Within owned id (Within owned id) := by
  unfold pause
  split
  · exact hwithin
  · split
    · exact hwithin
    · refine (within_checkpoint hwithin).bind fun flushed hwithin => ?_
      split
      · exact hwithin
      · rename_i race hrunning
        have hown : { race with paused := true }.Within owned id := hwithin.race race hrunning
        refine (Script.within_upsert (List.forall_mem_singleton.mpr hown)).bind fun _ _ => ?_
        exact (Script.within_publish hown _).bind fun _ _ => .of_race hown hwithin.id_eq rfl

theorem within_resume (hwithin : session.Within owned id) :
    session.resume.Within owned id (Within owned id) := by
  unfold resume
  split
  · exact hwithin
  · rename_i race hrunning
    have hown : { race with paused := false }.Within owned id := hwithin.race race hrunning
    refine (Script.within_upsert (List.forall_mem_singleton.mpr hown)).bind fun _ _ => ?_
    exact (Script.within_publish hown _).bind fun _ _ => .of_race hown hwithin.id_eq rfl

theorem within_record (hwithin : session.Within owned id) (sample : Sample) :
    (session.record sample).Within owned id (Within owned id) := by
  unfold record
  split
  · exact hwithin
  · rename_i race hrunning
    have hown : { race with raceTime := sample.currentRaceTime }.Within owned id :=
      hwithin.race race hrunning
    exact Script.within_clock.bind fun _ _ => .of_race hown hwithin.id_eq rfl

theorem within_enter (hwithin : session.Within owned id) (sample : Sample) :
    (session.enter sample).Within owned id (Within owned id) := by
  unfold enter
  split
  · exact within_openRace hwithin.id_eq sample
  · split
    · exact within_nextRace hwithin sample
    · split
      · exact within_resume hwithin
      · exact hwithin

theorem within_close (hwithin : session.Within owned id) :
    session.close.Within owned id (Within owned id) := by
  unfold close
  split
  · exact hwithin
  · refine (within_checkpoint hwithin).bind fun flushed hwithin => ?_
    split
    · exact hwithin
    · rename_i race hrunning
      refine (within_finished (hwithin.race race hrunning)).bind fun ended hown => ?_
      refine (Script.within_upsert (List.forall_mem_singleton.mpr hown)).bind fun _ _ => ?_
      exact (Script.within_publish hown _).bind fun _ _ => .of_closed hwithin.id_eq rfl

/-- **Every operation on a session keeps to the races of the session.** -/
theorem within_operation (hwithin : session.Within owned id) (operation : Operation) :
    (operation.script session).Within owned id (Within owned id) := by
  cases operation with
  | checkpoint => exact within_checkpoint hwithin
  | close => exact within_close hwithin
  | add sample =>
      show (session.add sample).Within owned id (Within owned id)
      unfold add
      split
      · exact within_pause hwithin
      · split
        · exact hwithin
        · exact (within_enter hwithin sample).bind fun _ hentered => within_record hentered sample

end Session

/-! ## Tasks -/

namespace Task

variable {owned : Set Uuid} {id : Uuid} {task after : Task}

/-- The session of the task has the identifier and keeps to the races that were drawn for it. -/
structure Within (owned : Set Uuid) (id : Uuid) (task : Task) : Prop where
  session : task.session.Within owned id
  script : ∀ work script fate, task.stage = .busy work script fate → ∀ wider, owned ⊆ wider →
    script.Within wider id (Session.Within wider id)

theorem Within.mono {wider : Set Uuid} (hwithin : task.Within owned id) (hwide : owned ⊆ wider) :
    task.Within wider id :=
  ⟨hwithin.session.mono hwide, fun work script fate hstage widest htrans =>
    hwithin.script work script fate hstage widest (hwide.trans htrans)⟩

/-- A task that carries out no script keeps to what its session keeps to. -/
theorem Within.of_session (hwithin : task.session.Within owned id)
    (hidle : ∀ work script fate, task.stage ≠ .busy work script fate) : task.Within owned id :=
  ⟨hwithin, fun work script fate hstage => absurd hstage (hidle work script fate)⟩

/-- A session that is opened has no races yet. -/
theorem within_newTask (registry : Registry) (endpoint : String) (session : Uuid)
    (owned : Set Uuid) : (registry.newTask endpoint session).Within owned session := by
  apply Within.of_session
  · refine ⟨rfl, fun race hcurrent => ?_⟩
    have hrunning : (none : Option Race) = some race := hcurrent
    cases hrunning
  · intro work script fate hbusy
    have hopened : Stage.opened = .busy work script fate := hbusy
    cases hopened

/-- A task that begins an operation keeps to its races. -/
theorem Within.of_begins (hwithin : task.session.Within owned id) {work : Work}
    (operation : Operation)
    (hstage : task.stage = .busy work (operation.script task.session) none) :
    task.Within owned id := by
  refine ⟨hwithin, fun _ script _ hsame wider hwide => ?_⟩
  rw [hstage] at hsame
  cases hsame
  exact Session.within_operation (hwithin.mono hwide) operation

/-- No turn but the answer of a request lets a task out of its races. -/
theorem Turn.within {interval : Duration} {step : TaskStep} {operation : Option Operation}
    (hturn : task.Turn interval step operation after) (hasks : step ≠ .complete)
    (hwithin : task.Within owned id) : after.Within owned id := by
  cases hturn with
  | starts | dies | leaves | idles | unregisters | closesQueue =>
      exact .of_session hwithin.session nofun
  | receives _ sample | drains sample => exact .of_begins hwithin.session (.add sample) rfl
  | flushes => exact .of_begins hwithin.session .checkpoint rfl
  | concludes => exact .of_begins hwithin.session .close rfl
  | calls work request next fails hstage =>
      refine ⟨hwithin.session, fun _ _ _ hsame => ?_⟩
      cases hsame
      exact hwithin.script _ _ _ hstage
  | completes => exact absurd rfl hasks
  | settles work session hstage =>
      have hended := hwithin.script _ _ _ hstage owned (subset_refl owned)
      refine .of_session hended fun _ _ _ => ?_
      cases work <;> simp [stageAfter]

/-- The request that a task is about to make names its own races. -/
theorem Within.request (hwithin : task.Within owned id) {work : Work} {request : Request}
    {next : request.Answer → Script Session} {fate : Option Bool}
    (hstage : task.stage = .busy work (.ask request next) fate) : request.Within owned id :=
  (hwithin.script _ _ _ hstage owned (subset_refl owned)).1

/-- A request that is answered lets a task out of its races only by the identifiers it draws. -/
theorem Within.reply (hwithin : task.Within owned id) {work : Work} {request : Request}
    {next : request.Answer → Script Session} {fate : Option Bool}
    (hstage : task.stage = .busy work (.ask request next) fate) {wider : Set Uuid}
    (hwide : owned ⊆ wider) {answer : request.Answer} (hgranted : request.Grants wider answer) :
    { task with stage := .busy work (next answer) none }.Within wider id := by
  refine ⟨hwithin.session.mono hwide, fun _ script _ hsame widest htrans => ?_⟩
  cases hsame
  refine (hwithin.script _ _ _ hstage widest (hwide.trans htrans)).2 answer ?_
  cases request with
  | freshId => exact htrans hgranted
  | insert | upsert | last | publish | clock => trivial

end Task

end RaceIngest
