import RaceIngest.Proofs.Session.Dossiers
import RaceIngest.Proofs.Session.Mirror

/-!
# Checkpoints leave no trace

A checkpoint falls wherever the clock of the task happens to tick: between two samples, right before
a pause, a resume or a race boundary. Each of these finds another copy of the race in the store then
and another number of samples waiting. In the end none of it can be seen: two runs over a reliable
store that differ in their checkpoints only have stored the same races and samples and published the
same events once they are closed.

The argument compares two states after a checkpoint in both of them. That is no more than asking
what would be stored if everything that waits were written now (`flush`), and a checkpoint does not
change it. Every other operation does the same in both runs, since an operation that does not just
record a sample might as well begin with a checkpoint; and a sample that is recorded after a
checkpoint and written alone leaves what it leaves when it is written with those before it.

Nothing here looks at what an operation writes. That a script does the same in two worlds that hold
the same is shown once for all scripts (`World.Alike.run`), and in the store one flush after another
is one flush (`Shelf.after_flush_flush`).

## Main results

* `World.Alike.run`: scripts that are alike have the same results in worlds that are alike.
* `Session.alike_operation`: what a session does does not depend on the room that its buffer has.
* `Alike.flush_first`: an operation might as well begin with a checkpoint.
* `Alike.flush_performAll`: a run ends like the one without its checkpoints.
* `checkpoints_leave_no_trace`: two runs that differ in their checkpoints only.
-/

namespace RaceIngest

open Calendar

/-! ## Scripts that are alike -/

/-- Two scripts make the same requests, however they are answered, and end with related results. -/
inductive Script.Alike {α β : Type} (R : α → β → Prop) : Script α → Script β → Prop where
  | done {a : α} {b : β} (h : R a b) : Alike R (.done a) (.done b)
  | ask {request : Request} {next : request.Answer → Script α} {next' : request.Answer → Script β}
      (h : ∀ answer, Alike R (next answer) (next' answer)) :
      Alike R (.ask request next) (.ask request next')

namespace Script

variable {α β γ δ : Type}

theorem Alike.refl (script : Script α) : Alike Eq script script := by
  induction script with
  | done a => exact .done rfl
  | ask request next ih => exact .ask ih

/-- Scripts that are alike may go on with scripts that are. -/
theorem Alike.bind {R : α → β → Prop} {S : γ → δ → Prop} {script : Script α} {script' : Script β}
    (h : Alike R script script') {next : α → Script γ} {next' : β → Script δ}
    (hnext : ∀ a b, R a b → Alike S (next a) (next' b)) :
    Alike S (script >>= next) (script' >>= next') := by
  induction h with
  | done hab => exact hnext _ _ hab
  | ask _ ih => exact .ask ih

end Script

/-! ## Worlds that are alike -/

/-- Asked for the last sample of a race, the store answers from the samples that it has. -/
def Reliable.Recalls {σ : Type} [Store σ] (reliable : Reliable σ) : Prop :=
  ∀ {store : σ}, reliable.Sound store → ∀ id,
    Store.lastSample store id = lastOf id ((reliable.shelf store).samples id)

theorem MemoryStore.recalls : MemoryStore.reliable.Recalls := fun _ _ => rfl

namespace World

variable {σ : Type} [Store σ]

/-- Two worlds hold the same: their stores have the same content, the same events were published,
and they show the same times and give out the same identifiers from now on. The calls that led to
that content may differ. -/
structure Alike (reliable : Reliable σ) (initial : Shelf) (world other : World σ) : Prop where
  kept : world.Kept reliable initial
  kept' : other.Kept reliable initial
  shelf_eq : initial.after world.calls = initial.after other.calls
  events_eq : world.events = other.events
  readings_eq : world.readings = other.readings
  read_eq : world.read = other.read
  ids_eq : world.ids = other.ids
  issued_eq : world.issued = other.issued

variable {reliable : Reliable σ} {initial : Shelf} {world other : World σ}

theorem Alike.refl (h : world.Kept reliable initial) : world.Alike reliable initial world :=
  ⟨h, h, rfl, rfl, rfl, rfl, rfl, rfl⟩

theorem Alike.symm (h : world.Alike reliable initial other) :
    other.Alike reliable initial world where
  kept := h.kept'
  kept' := h.kept
  shelf_eq := h.shelf_eq.symm
  events_eq := h.events_eq.symm
  readings_eq := h.readings_eq.symm
  read_eq := h.read_eq.symm
  ids_eq := h.ids_eq.symm
  issued_eq := h.issued_eq.symm

theorem Alike.trans {third : World σ} (h : world.Alike reliable initial other)
    (h' : other.Alike reliable initial third) : world.Alike reliable initial third where
  kept := h.kept
  kept' := h'.kept'
  shelf_eq := h.shelf_eq.trans h'.shelf_eq
  events_eq := h.events_eq.trans h'.events_eq
  readings_eq := h.readings_eq.trans h'.readings_eq
  read_eq := h.read_eq.trans h'.read_eq
  ids_eq := h.ids_eq.trans h'.ids_eq
  issued_eq := h.issued_eq.trans h'.issued_eq

/-- Worlds that are alike stay so when calls are added that do the same to the store. -/
theorem Alike.extend (h : world.Alike reliable initial other) {world' other' : World σ}
    {calls calls' : List Call} {events : List Event} {taken n : Nat}
    (hextends : world.Extends world' calls events taken)
    (hextends' : other.Extends other' calls' events taken)
    (hkept : world'.Kept reliable initial) (hkept' : other'.Kept reliable initial)
    (hcalls : ∀ shelf : Shelf, shelf.after calls = shelf.after calls')
    (hreads : world.Reads world' n) (hreads' : other.Reads other' n) :
    world'.Alike reliable initial other' where
  kept := hkept
  kept' := hkept'
  shelf_eq := by
    rw [hextends.calls_eq, hextends'.calls_eq, Shelf.after_append, Shelf.after_append, h.shelf_eq,
      hcalls]
  events_eq := by rw [hextends.events_eq, hextends'.events_eq, h.events_eq]
  readings_eq := by rw [hreads.readings_eq, hreads'.readings_eq, h.readings_eq]
  read_eq := by rw [hreads.read_eq, hreads'.read_eq, h.read_eq]
  ids_eq := by rw [hextends.ids_eq, hextends'.ids_eq, h.ids_eq]
  issued_eq := by rw [hextends.issued_eq, hextends'.issued_eq, h.issued_eq]

/-- Worlds that are alike give the same answers, and are alike afterwards. -/
theorem Alike.answer (h : world.Alike reliable initial other) (hrecalls : reliable.Recalls)
    (request : Request) :
    (world.answer request).1 = (other.answer request).1 ∧
      (world.answer request).2.Alike reliable initial (other.answer request).2 := by
  have hfails := h.kept.fails_eq request
  have hfails' := h.kept'.fails_eq request
  have hextend : ∀ {calls calls' : List Call} {events : List Event} {taken : Nat},
      world.Extends (world.answer request).2 calls events taken →
      other.Extends (other.answer request).2 calls' events taken →
      (∀ shelf : Shelf, shelf.after calls = shelf.after calls') →
      (world.answer request).2.Alike reliable initial (other.answer request).2 :=
    fun hextends hextends' hcalls => h.extend hextends hextends' (h.kept.answer request)
      (h.kept'.answer request) hcalls (world.reads_answer request) (other.reads_answer request)
  cases request with
  | insert race samples =>
      refine ⟨?_, hextend (world.extends_insert race samples) (other.extends_insert race samples)
        fun _ => rfl⟩
      obtain ⟨store, heq, -⟩ := reliable.insert h.kept.sound race samples
      obtain ⟨store', heq', -⟩ := reliable.insert h.kept'.sound race samples
      simp only [World.answer, call, hfails, hfails', act, note, Bool.false_eq_true, if_false, heq,
        heq']
  | upsert races =>
      refine ⟨?_, hextend (world.extends_upsert races) (other.extends_upsert races) fun _ => rfl⟩
      obtain ⟨store, heq, -⟩ := reliable.upsert h.kept.sound races
      obtain ⟨store', heq', -⟩ := reliable.upsert h.kept'.sound races
      simp only [World.answer, call, hfails, hfails', act, note, Bool.false_eq_true, if_false, heq,
        heq']
  | last race =>
      refine ⟨?_, hextend (world.extends_last race) (other.extends_last race) fun _ => rfl⟩
      simp only [World.answer, call, hfails, hfails', act, note, Bool.false_eq_true, if_false]
      rw [hrecalls h.kept.sound, hrecalls h.kept'.sound, h.kept.shelf_eq, h.kept'.shelf_eq,
        h.shelf_eq]
  | publish event =>
      exact ⟨rfl, hextend (world.extends_publish event) (other.extends_publish event) fun _ => rfl⟩
  | clock =>
      refine ⟨?_, hextend world.extends_clock other.extends_clock fun _ => rfl⟩
      change world.readings world.read = other.readings other.read
      rw [h.readings_eq, h.read_eq]
  | freshId =>
      refine ⟨?_, hextend world.extends_freshId other.extends_freshId fun _ => rfl⟩
      change world.ids world.issued = other.ids other.issued
      rw [h.ids_eq, h.issued_eq]

/-- **Scripts that are alike do the same in worlds that are alike.** -/
theorem Alike.run {α β : Type} {R : α → β → Prop} {script : Script α} {script' : Script β}
    (h : world.Alike reliable initial other) (hrecalls : reliable.Recalls)
    (hscripts : script.Alike R script') :
    R (script.run World.answer world).1 (script'.run World.answer other).1 ∧
      (script.run World.answer world).2.Alike reliable initial
        (script'.run World.answer other).2 := by
  induction hscripts generalizing world other with
  | done hab => exact ⟨hab, h⟩
  | @ask request next next' _ ih =>
      obtain ⟨hanswer, halike⟩ := h.answer hrecalls request
      have hrest := ih (other.answer request).1 halike
      simp only [Script.run]
      rw [hanswer]
      exact hrest

end World

/-! ## Sessions that are alike -/

namespace Session

/-- Two sessions are the same, but for the room that their buffers have. -/
structure Same (session other : Session) : Prop where
  id_eq : session.id = other.id
  race_eq : session.race = other.race
  buffer_eq : session.buffer = other.buffer

theorem Same.refl (session : Session) : session.Same session := ⟨rfl, rfl, rfl⟩

theorem Same.symm {session other : Session} (h : session.Same other) : other.Same session :=
  ⟨h.id_eq.symm, h.race_eq.symm, h.buffer_eq.symm⟩

theorem Same.trans {first second third : Session} (h : first.Same second)
    (h' : second.Same third) : first.Same third :=
  ⟨h.id_eq.trans h'.id_eq, h.race_eq.trans h'.race_eq, h.buffer_eq.trans h'.buffer_eq⟩

variable {session other : Session}

theorem alike_checkpoint (h : session.Same other) :
    Script.Alike Same session.checkpoint other.checkpoint := by
  unfold checkpoint
  rw [← h.race_eq, ← h.buffer_eq]
  cases session.buffer.getLast? with
  | none => exact .done h
  | some last =>
      cases hrace : session.race with
      | none => exact .done ⟨h.id_eq, rfl, rfl⟩
      | some race => exact .ask fun _ => .ask fun _ => .done ⟨h.id_eq, rfl, rfl⟩

theorem alike_openRace (h : session.Same other) (sample : Sample) :
    Script.Alike Same (session.openRace sample) (other.openRace sample) := by
  unfold openRace startRace
  rw [← h.id_eq]
  exact .ask fun _ => .ask fun _ => .ask fun _ => .ask fun _ => .done ⟨rfl, rfl, h.buffer_eq⟩

theorem alike_nextRace (h : session.Same other) (sample : Sample) :
    Script.Alike Same (session.nextRace sample) (other.nextRace sample) := by
  refine (alike_checkpoint h).bind fun flushed flushed' hflushed => ?_
  rw [← hflushed.race_eq]
  cases flushed.race with
  | none => exact .done hflushed
  | some current =>
      refine (Script.Alike.refl (finished current)).bind ?_
      rintro ended _ rfl
      unfold startRace
      rw [← hflushed.id_eq]
      exact .ask fun _ => .ask fun _ => .ask fun _ => .ask fun _ => .ask fun _ =>
        .done ⟨rfl, rfl, hflushed.buffer_eq⟩

theorem alike_pause (h : session.Same other) :
    Script.Alike Same session.pause other.pause := by
  unfold pause
  rw [← h.race_eq]
  cases session.race with
  | none => exact .done h
  | some race =>
      dsimp only
      split
      · exact .done h
      · refine (alike_checkpoint h).bind fun flushed flushed' hflushed => ?_
        rw [← hflushed.race_eq]
        cases flushed.race with
        | none => exact .done hflushed
        | some current =>
            exact .ask fun _ => .ask fun _ => .done ⟨hflushed.id_eq, rfl, hflushed.buffer_eq⟩

theorem alike_resume (h : session.Same other) :
    Script.Alike Same session.resume other.resume := by
  unfold resume
  rw [← h.race_eq]
  cases session.race with
  | none => exact .done h
  | some race => exact .ask fun _ => .ask fun _ => .done ⟨h.id_eq, rfl, h.buffer_eq⟩

theorem alike_record (h : session.Same other) (sample : Sample) :
    Script.Alike Same (session.record sample) (other.record sample) := by
  unfold record
  rw [← h.race_eq, ← h.buffer_eq]
  cases session.race with
  | none => exact .done h
  | some race => exact .ask fun _ => .done ⟨h.id_eq, rfl, rfl⟩

theorem alike_enter (h : session.Same other) (sample : Sample) :
    Script.Alike Same (session.enter sample) (other.enter sample) := by
  unfold enter
  rw [← h.race_eq]
  cases session.race with
  | none => exact alike_openRace h sample
  | some race =>
      dsimp only
      split
      · exact alike_nextRace h sample
      · split
        · exact alike_resume h
        · exact .done h

theorem alike_close (h : session.Same other) :
    Script.Alike Same session.close other.close := by
  unfold close
  rw [← h.race_eq]
  cases session.race with
  | none => exact .done h
  | some race =>
      refine (alike_checkpoint h).bind fun flushed flushed' hflushed => ?_
      rw [← hflushed.race_eq]
      cases flushed.race with
      | none => exact .done hflushed
      | some current =>
          refine (Script.Alike.refl (finished current)).bind ?_
          rintro ended _ rfl
          exact .ask fun _ => .ask fun _ => .done ⟨hflushed.id_eq, rfl, hflushed.buffer_eq⟩

/-- What a session does does not depend on the room that its buffer has. -/
theorem alike_operation (h : session.Same other) (operation : Operation) :
    Script.Alike Same (operation.script session) (operation.script other) := by
  cases operation with
  | checkpoint => exact alike_checkpoint h
  | close => exact alike_close h
  | add sample =>
      change Script.Alike Same (session.add sample) (other.add sample)
      unfold add
      split
      · exact alike_pause h
      · split
        · exact .done h
        · exact (alike_enter h sample).bind fun _ _ hready => alike_record hready sample

end Session

/-! ## One flush after another -/

/-- Samples that are written in two flushes of a race leave what they leave when they are written in
one. -/
theorem Shelf.after_flush_flush (shelf : Shelf) {race earlier : Race} (h : race.SameRace earlier)
    (first second : List Recorded) :
    shelf.after [.upsert [earlier], .insert earlier first, .upsert [race], .insert race second] =
      shelf.after [.upsert [race], .insert race (first ++ second)] := by
  have hput : (shelf.put earlier).put race = shelf.put race := by
    unfold put
    congr 1
    funext id
    simp only [← h.id_eq]
    split
    · -- what is stored for the race is updated twice, and only the second update counts
      cases shelf.race? race.id with
      | none => simp [Race.mergeMutable_eq h]
      | some stored => simp [Race.mergeMutable_mergeMutable]
    · rfl
  have hinsert : ∀ stock : Shelf,
      (stock.insert race first).insert race second = stock.insert race (first ++ second) := by
    intro stock
    unfold insert
    congr 1
    funext id
    dsimp only
    split
    · exact List.append_assoc _ _ _
    · rfl
  calc shelf.after [.upsert [earlier], .insert earlier first, .upsert [race], .insert race second]
      = (((shelf.put earlier).put race).insert race first).insert race second := by
        simp only [after, apply, insert, put, List.foldl_cons, List.foldl_nil, h.id_eq]
    _ = shelf.after [.upsert [race], .insert race (first ++ second)] := by
        rw [hput, hinsert]
        rfl

namespace Session

variable {session : Session}

/-- The aggregates that a flush wrote are overwritten with the next sample. -/
theorem update_refreshed (session : Session) (race : Race) (sample : Sample) :
    (session.refreshed race).update sample = race.update sample := by
  unfold refreshed
  cases session.buffer.getLast? <;> rfl

theorem flushCalls_recorded (session : Session) (sample : Sample) (race : Race) (now : Timestamp) :
    (session.recorded sample race now).flushCalls =
      [.upsert [race.update sample],
        .insert (race.update sample) (session.buffer ++ [⟨sample, race.id, now⟩])] := by
  simp [flushCalls, recorded, refreshed, Race.update]

theorem race_flushed_recorded (session : Session) (sample : Sample) (race : Race)
    (now : Timestamp) :
    (session.recorded sample race now).flushed.race = some (race.update sample) := by
  simp [flushed, recorded, refreshed, Race.update]

/-- A sample that is recorded after a flush and written alone leaves what it leaves when it is
written with those before it. -/
theorem after_flushCalls_recorded {race : Race} (hrace : session.race = some race)
    (sample : Sample) (now : Timestamp) (shelf : Shelf) :
    shelf.after (session.recorded sample race now).flushCalls =
      shelf.after (session.flushCalls ++
        (session.flushed.recorded sample (session.refreshed race) now).flushCalls) := by
  rw [flushCalls_recorded, flushCalls_recorded, update_refreshed, id_refreshed]
  unfold flushCalls
  rw [hrace]
  cases hlast : session.buffer.getLast? with
  | none =>
      rw [List.getLast?_eq_none_iff.mp hlast]
      rfl
  | some last =>
      have hsame : (race.update sample).SameRace (session.refreshed race) := by
        rw [← session.update_refreshed race sample]
        exact Race.sameRace_update _ _
      exact (shelf.after_flush_flush hsame _ _).symm

end Session

/-! ## States after a flush -/

section States

variable {σ : Type} [Store σ] {reliable : Reliable σ} {initial : Shelf}
  {state other : Session × World σ}

/-- What every state of a run over a reliable store is like. -/
structure Orderly (reliable : Reliable σ) (initial : Shelf) (state : Session × World σ) :
    Prop where
  coherent : state.1.Coherent
  quiet : state.1.Quiet
  kept : state.2.Kept reliable initial

theorem Orderly.perform (h : Orderly reliable initial state) (operation : Operation) :
    Orderly reliable initial (World.perform operation state) := by
  obtain ⟨_, _, _, hmove, -⟩ := World.exists_move operation state.1 state.2
  exact ⟨hmove.coherent h.coherent, hmove.quiet h.quiet, h.kept.run _⟩

/-- Two states are alike: what happens from now on is the same in both. -/
structure Alike (reliable : Reliable σ) (initial : Shelf) (state other : Session × World σ) :
    Prop where
  session : state.1.Same other.1
  world : state.2.Alike reliable initial other.2

theorem Alike.refl (h : Orderly reliable initial state) : Alike reliable initial state state :=
  ⟨.refl _, .refl h.kept⟩

theorem Alike.symm (h : Alike reliable initial state other) : Alike reliable initial other state :=
  ⟨h.session.symm, h.world.symm⟩

theorem Alike.trans {third : Session × World σ} (h : Alike reliable initial state other)
    (h' : Alike reliable initial other third) : Alike reliable initial state third :=
  ⟨h.session.trans h'.session, h.world.trans h'.world⟩

theorem Alike.perform (h : Alike reliable initial state other) (hrecalls : reliable.Recalls)
    (operation : Operation) :
    Alike reliable initial (World.perform operation state) (World.perform operation other) := by
  obtain ⟨hsession, hworld⟩ :=
    h.world.run hrecalls (Session.alike_operation h.session operation)
  exact ⟨hsession, hworld⟩

/-- Writes everything that waits. -/
def flush (state : Session × World σ) : Session × World σ := World.perform .checkpoint state

theorem Session.checkpoint_of_buffer_eq_nil {session : Session} (h : session.buffer = []) :
    session.checkpoint = .done session := by
  unfold checkpoint
  rw [h]
  rfl

theorem flush_of_buffer_eq_nil (h : state.1.buffer = []) : flush state = state := by
  change state.1.checkpoint.run World.answer state.2 = state
  rw [Session.checkpoint_of_buffer_eq_nil h]
  rfl

theorem fst_flush (state : Session × World σ) : (flush state).1 = state.1.flushed := by
  obtain ⟨world, hrun, -⟩ := state.1.run_checkpoint state.2
  exact congrArg Prod.fst hrun

theorem extends_flush (state : Session × World σ) :
    state.2.Extends (flush state).2 state.1.flushCalls [] 0 := by
  obtain ⟨world, hrun, hextends⟩ := state.1.run_checkpoint state.2
  have hworld : (flush state).2 = world := congrArg Prod.snd hrun
  rwa [hworld]

theorem reads_flush (state : Session × World σ) : state.2.Reads (flush state).2 0 := by
  change state.2.Reads (state.1.checkpoint.run World.answer state.2).2 0
  unfold Session.checkpoint
  cases state.1.buffer.getLast? with
  | none => exact .refl _
  | some last =>
      cases state.1.race with
      | none => exact .refl _
      | some race =>
          exact (state.2.reads_answer (.upsert [race.update last.sample])).trans
            (World.reads_answer _ (.insert (race.update last.sample) state.1.buffer))

theorem buffer_flush (state : Session × World σ) : (flush state).1.buffer = [] := by
  rw [fst_flush]
  rfl

theorem flush_flush (state : Session × World σ) : flush (flush state) = flush state :=
  flush_of_buffer_eq_nil (buffer_flush state)

theorem Orderly.flush (h : Orderly reliable initial state) :
    Orderly reliable initial (flush state) :=
  h.perform .checkpoint

/-- A script that begins with a checkpoint might as well find the checkpoint done. -/
theorem run_checkpoint_bind {α : Type} (state : Session × World σ) (next : Session → Script α) :
    (state.1.checkpoint >>= next).run World.answer state.2 =
      ((flush state).1.checkpoint >>= next).run World.answer (flush state).2 := by
  rw [Session.checkpoint_of_buffer_eq_nil (buffer_flush state), Script.done_bind, Script.run_bind]
  rfl

/-! ## An operation might as well begin with a checkpoint -/

theorem race_flush {race : Race} (hrace : state.1.race = some race) :
    (flush state).1.race = some (state.1.refreshed race) := by
  rw [fst_flush]
  simp [Session.flushed, hrace]

theorem perform_close_flush {race : Race} (hrace : state.1.race = some race) :
    World.perform .close (flush state) = World.perform .close state := by
  change (flush state).1.close.run World.answer (flush state).2 =
    state.1.close.run World.answer state.2
  unfold Session.close
  rw [hrace, race_flush hrace]
  exact (run_checkpoint_bind state _).symm

theorem perform_add_flush_of_off {race : Race} {sample : Sample} (hrace : state.1.race = some race)
    (hrunning : race.paused = false) (hoff : sample.onTrack = false) :
    World.perform (.add sample) (flush state) = World.perform (.add sample) state := by
  have hflag : (state.1.refreshed race).paused = false :=
    (Race.continues_refreshed state.1 race).paused_eq.trans hrunning
  change ((flush state).1.add sample).run World.answer (flush state).2 =
    (state.1.add sample).run World.answer state.2
  unfold Session.add Session.pause
  simp only [hoff, Bool.not_false, if_true, hrace, race_flush hrace, hrunning, hflag,
    Bool.false_eq_true, if_false]
  exact (run_checkpoint_bind state _).symm

theorem perform_add_of_grid {sample : Sample} (hon : sample.onTrack = true)
    (hgrid : sample.currentLap.isZero = true) (state : Session × World σ) :
    World.perform (.add sample) state = state := by
  change (state.1.add sample).run World.answer state.2 = state
  unfold Session.add
  simp only [hon, hgrid, Bool.not_true, Bool.false_eq_true, if_false, if_true]
  rfl

/-- A flush does not change which samples start a new race. -/
theorem isNewRace_refreshed {session : Session} (h : session.Coherent) {race : Race}
    (hrace : session.race = some race) (sample : Sample) :
    (session.refreshed race).isNewRace sample = race.isNewRace sample := by
  unfold Race.isNewRace
  rw [h.raceTime_refreshed hrace]

theorem perform_add_flush_of_new {race : Race} {sample : Sample}
    (h : Orderly reliable initial state) (hrace : state.1.race = some race)
    (hon : sample.onTrack = true) (hlap : sample.currentLap.isZero = false)
    (hnew : race.isNewRace sample = true) :
    World.perform (.add sample) (flush state) = World.perform (.add sample) state := by
  have hnew' := (isNewRace_refreshed h.coherent hrace sample).trans hnew
  change ((flush state).1.add sample).run World.answer (flush state).2 =
    (state.1.add sample).run World.answer state.2
  unfold Session.add Session.enter Session.nextRace
  simp only [hon, hlap, hrace, race_flush hrace, hnew, hnew', Bool.not_true, Bool.false_eq_true,
    if_false, if_true, Script.bind_bind]
  exact (run_checkpoint_bind state _).symm

/-- A sample that goes on with a race is recorded for it, and the clock is read for its receipt. -/
theorem perform_add_of_old {race : Race} {sample : Sample} (hrace : state.1.race = some race)
    (hon : sample.onTrack = true) (hlap : sample.currentLap.isZero = false)
    (hold : race.isNewRace sample = false) (hrunning : race.paused = false) :
    World.perform (.add sample) state =
      (state.1.recorded sample race (state.2.answer .clock).1, (state.2.answer .clock).2) := by
  change (state.1.add sample).run World.answer state.2 = _
  unfold Session.add Session.enter
  simp only [hon, hlap, hrace, hold, hrunning, Bool.not_true, Bool.false_eq_true, if_false]
  unfold Session.record
  simp only [Script.pure_eq_done, Script.done_bind, hrace]
  rfl

theorem Alike.flush_recorded {race : Race} {sample : Sample} (h : Orderly reliable initial state)
    (hrace : state.1.race = some race) (hon : sample.onTrack = true)
    (hlap : sample.currentLap.isZero = false) (hold : race.isNewRace sample = false)
    (hrunning : race.paused = false) :
    Alike reliable initial (flush (World.perform (.add sample) state))
      (flush (World.perform (.add sample) (flush state))) := by
  have hperform := perform_add_of_old hrace hon hlap hold hrunning
  have hperform' := perform_add_of_old (race_flush hrace) hon hlap
    ((isNewRace_refreshed h.coherent hrace sample).trans hold)
    ((Race.continues_refreshed state.1 race).paused_eq.trans hrunning)
  -- the flush in between does not read the clock, so both samples have the same receipt
  have hnow : ((flush state).2.answer .clock).1 = (state.2.answer .clock).1 := by
    change (flush state).2.readings (flush state).2.read = state.2.readings state.2.read
    rw [(reads_flush state).readings_eq, (reads_flush state).read_eq, Nat.add_zero]
  rw [fst_flush, hnow] at hperform'
  have hkept := (h.perform (.add sample)).flush.kept
  have hkept' := (h.flush.perform (.add sample)).flush.kept
  rw [hperform] at hkept
  rw [hperform'] at hkept'
  rw [hperform, hperform']
  refine ⟨?_, (World.Alike.refl h.kept).extend
    (state.2.extends_clock.trans (extends_flush (_, _)))
    (((extends_flush state).trans (flush state).2.extends_clock).trans (extends_flush (_, _)))
    hkept hkept' ?_ ((state.2.reads_answer .clock).trans (reads_flush (_, _)))
    (((reads_flush state).trans ((flush state).2.reads_answer .clock)).trans
      (reads_flush (_, _)))⟩
  · rw [fst_flush, fst_flush]
    refine ⟨rfl, ?_, rfl⟩
    rw [Session.race_flushed_recorded, Session.race_flushed_recorded, Session.update_refreshed]
  · intro shelf
    simpa using Session.after_flushCalls_recorded hrace sample _ shelf

/-- **An operation might as well begin with a checkpoint**, as far as what is stored after another
checkpoint goes. -/
theorem Alike.flush_first (h : Orderly reliable initial state) (operation : Operation) :
    Alike reliable initial (flush (World.perform operation state))
      (flush (World.perform operation (flush state))) := by
  have hafter := Alike.refl (h.perform operation).flush
  by_cases hbuffer : state.1.buffer = []
  · rwa [flush_of_buffer_eq_nil hbuffer]
  -- something waits, so there is a race and it is not paused
  obtain ⟨race, hrace⟩ : ∃ race, state.1.race = some race :=
    Option.ne_none_iff_exists'.mp fun hnone => hbuffer (h.coherent.buffer_eq_nil hnone)
  have hrunning : race.paused = false := by
    rw [Bool.eq_false_iff]
    exact fun hpaused => hbuffer (h.quiet race hrace hpaused)
  cases operation with
  | checkpoint =>
      change Alike reliable initial (flush (flush state)) (flush (flush (flush state)))
      rw [flush_flush, flush_flush]
      exact .refl h.flush
  | close => rwa [perform_close_flush hrace]
  | add sample =>
      cases hon : sample.onTrack with
      | false => rwa [perform_add_flush_of_off hrace hrunning hon]
      | true =>
          cases hlap : sample.currentLap.isZero with
          | true =>
              rw [perform_add_of_grid hon hlap, perform_add_of_grid hon hlap, flush_flush]
              exact .refl h.flush
          | false =>
              cases hnew : race.isNewRace sample with
              | true => rwa [perform_add_flush_of_new h hrace hon hlap hnew]
              | false => exact .flush_recorded h hrace hon hlap hnew hrunning

/-! ## Runs -/

/-- The same operation on two states that are alike once they are flushed. -/
theorem Alike.flush_perform (hrecalls : reliable.Recalls) (h : Orderly reliable initial state)
    (h' : Orderly reliable initial other)
    (halike : Alike reliable initial (flush state) (flush other)) (operation : Operation) :
    Alike reliable initial (flush (World.perform operation state))
      (flush (World.perform operation other)) := by
  have hmiddle := (halike.perform hrecalls operation).perform hrecalls .checkpoint
  exact (Alike.flush_first h operation).trans
    (hmiddle.trans (Alike.flush_first h' operation).symm)

/-- The operations without the checkpoints among them. -/
def withoutCheckpoints (operations : List Operation) : List Operation :=
  operations.filter (· ≠ .checkpoint)

/-- A run ends like the one without its checkpoints, once both are flushed. -/
theorem Alike.flush_performAll (hrecalls : reliable.Recalls) (operations : List Operation)
    (h : Orderly reliable initial state) (h' : Orderly reliable initial other)
    (halike : Alike reliable initial (flush state) (flush other)) :
    Alike reliable initial (flush (World.performAll operations state))
      (flush (World.performAll (withoutCheckpoints operations) other)) := by
  induction operations generalizing state other with
  | nil => exact halike
  | cons operation operations ih =>
      by_cases hcheckpoint : operation = .checkpoint
      · -- only one of the two states changes, and once it is flushed it does not
        subst hcheckpoint
        refine ih (h.perform .checkpoint) h' ?_
        change Alike reliable initial (flush (flush state)) (flush other)
        rwa [flush_flush]
      · have hkeep : withoutCheckpoints (operation :: operations) =
            operation :: withoutCheckpoints operations :=
          List.filter_cons_of_pos (by simpa using hcheckpoint)
        rw [hkeep]
        exact ih (h.perform operation) (h'.perform operation)
          (Alike.flush_perform hrecalls h h' halike operation)

theorem Orderly.performAll (h : Orderly reliable initial state) (operations : List Operation) :
    Orderly reliable initial (World.performAll operations state) := by
  induction operations generalizing state with
  | nil => exact h
  | cons operation operations ih => exact ih (h.perform operation)

/-- A session that was closed has nothing to flush. -/
theorem flush_close (h : Orderly reliable initial state) :
    flush (World.perform .close state) = World.perform .close state := by
  obtain ⟨_, _, _, hmove, -⟩ := World.exists_move .close state.1 state.2
  exact flush_of_buffer_eq_nil (hmove.buffer_eq_nil h.coherent (.inr rfl))

theorem Alike.race?_eq (h : Alike reliable initial state other) (id : Uuid) :
    Store.race? state.2.store id = Store.race? other.2.store id := by
  rw [reliable.race?_eq h.world.kept.sound, reliable.race?_eq h.world.kept'.sound,
    h.world.kept.shelf_eq, h.world.kept'.shelf_eq, h.world.shelf_eq]

theorem Alike.samples_eq (h : Alike reliable initial state other) (id : Uuid) :
    Store.samples state.2.store id = Store.samples other.2.store id := by
  rw [reliable.samples_eq h.world.kept.sound, reliable.samples_eq h.world.kept'.sound,
    h.world.kept.shelf_eq, h.world.kept'.shelf_eq, h.world.shelf_eq]

/-- When checkpoints are made cannot be seen in the end. Two runs over a store that never fails are
closed at last and differ in their checkpoints only, in where they are and in how many there are.
Then every race is stored alike after both, with the same samples in the same order, and both
published the same events. -/
theorem checkpoints_leave_no_trace (reliable : Reliable σ) (hrecalls : reliable.Recalls)
    (store : σ) (hsound : reliable.Sound store) (readings : Nat → Timestamp) (ids : Nat → Uuid)
    (id : Uuid) (capacity : Nat) (operations operations' : List Operation)
    (hsame : withoutCheckpoints operations = withoutCheckpoints operations') :
    let run := fun operations => World.performAll (operations ++ [.close])
      (Session.fresh id capacity, World.fresh store .none readings ids)
    (∀ race, Store.race? (run operations).2.store race =
        Store.race? (run operations').2.store race) ∧
      (∀ race, Store.samples (run operations).2.store race =
        Store.samples (run operations').2.store race) ∧
      (run operations).2.events = (run operations').2.events := by
  intro run
  let start := (Session.fresh id capacity, World.fresh store .none readings ids)
  have hstart : Orderly reliable (reliable.shelf store) start :=
    ⟨Session.coherent_fresh id capacity, Session.quiet_fresh id capacity, rfl, hsound, rfl⟩
  -- both runs end like the run of the same operations without a checkpoint
  have hbare : ∀ operations, Alike reliable (reliable.shelf store) (run operations)
      (flush (World.performAll (withoutCheckpoints (operations ++ [.close])) start)) := by
    intro operations
    have hflushed : flush (run operations) = run operations := by
      change flush (World.performAll (operations ++ [.close]) start) =
        World.performAll (operations ++ [.close]) start
      rw [World.performAll_append]
      exact flush_close (hstart.performAll operations)
    have hrun := Alike.flush_performAll hrecalls (operations ++ [.close]) hstart hstart
      (.refl hstart.flush)
    change Alike reliable _ (flush (run operations)) _ at hrun
    rwa [hflushed] at hrun
  have hsame' : withoutCheckpoints (operations ++ [.close]) =
      withoutCheckpoints (operations' ++ [.close]) := by
    unfold withoutCheckpoints at hsame ⊢
    rw [List.filter_append, List.filter_append, hsame]
  have halike := hbare operations
  rw [hsame'] at halike
  have halike := halike.trans (hbare operations').symm
  exact ⟨halike.race?_eq, halike.samples_eq, halike.world.events_eq⟩

/-- A race that is paused, resumed and crossed into the next, with checkpoints before each of these
and between two samples, and with one at the end only: other calls, and the same six events. -/
theorem no_trace_of_race_boundary :
    let operations : List Operation := [.add (.lapping .one), .checkpoint, .add (.lapping .one),
      .checkpoint, .add default, .checkpoint, .add (.lapping .one), .checkpoint, .checkpoint,
      .add (.lapping .zero)]
    let operations' : List Operation := [.add (.lapping .one), .add (.lapping .one), .add default,
      .add (.lapping .one), .add (.lapping .zero), .checkpoint]
    let run := fun operations => World.performAll (operations ++ [.close])
      (Session.fresh (.ofNat 0) 350,
        World.fresh MemoryStore.empty .none (fun _ => default) .ofNat)
    withoutCheckpoints operations = withoutCheckpoints operations' ∧
      (run operations).2.calls.length = 15 ∧ (run operations').2.calls.length = 13 ∧
      (run operations).2.events.length = 6 ∧
      (run operations).2.events = (run operations').2.events ∧
      (∀ race, Store.race? (run operations).2.store race =
        Store.race? (run operations').2.store race) ∧
      ∀ race, Store.samples (run operations).2.store race =
        Store.samples (run operations').2.store race := by
  intro operations operations' run
  have hsame : withoutCheckpoints operations = withoutCheckpoints operations' := by decide
  obtain ⟨hraces, hsamples, hevents⟩ := checkpoints_leave_no_trace MemoryStore.reliable
    MemoryStore.recalls MemoryStore.empty (RaceIndex.ordered_ofList []) (fun _ => default) .ofNat
    (.ofNat 0) 350 operations operations' hsame
  exact ⟨hsame, rfl, rfl, rfl, hevents, hraces, hsamples⟩

end States

end RaceIngest
