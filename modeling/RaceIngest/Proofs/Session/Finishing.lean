import RaceIngest.Proofs.Race.Lap
import RaceIngest.Proofs.Session.Receipts
import RaceIngest.Proofs.Store.Agreement

/-!
# The final values of a race

A race that ends takes its aggregates from the last sample that is stored of it, and is finished at
the time when that was received. Flushes that failed leave nothing behind, so what is stored last
may be old, or there may be nothing at all; and the question itself can fail. Then the race keeps
the aggregates that it has, and is finished at a reading of the clock.

That these are the right ones does not depend on what failed before. The flush that precedes the
question gives the race the aggregates of its last accepted sample whether the store works or not
(`UpToDate`), and what the store answers is the latest of what it holds, with no regard to how that
came to be there. The rest is about stores that never fail: there the samples of a race that are
stored when it ends are all that were accepted for it, after what was stored of it at first
(`Finishes.samplesOf_eq`).

## Main definitions

* `Finishes`: an operation flushes a race, asks for its last sample and stores what ended.
* `World.Stocked`: a store that never failed holds what was inserted.
* `InOrder`: no sample was received before an earlier one.

## Main results

* `exists_finishes`: a finished race is published by an operation that finishes it.
* `Clocked.inOrder`: under a clock that does not go back, receipts are in order.
* `finished_with_final_values`: the final values of every race of every run.
-/

namespace RaceIngest

open Calendar

/-! ## Finishing a race -/

/-- The race that ends, given the answer to the question for its last sample and the clock. -/
def Race.endWith (race : Race) (result : Except StorageError Recorded) (now : Timestamp) : Race :=
  match result with
  | .ok last => race.finish last
  | .error _ => race.finishAt now

@[simp] theorem Race.id_endWith (race : Race) (result : Except StorageError Recorded)
    (now : Timestamp) : (race.endWith result now).id = race.id := by
  cases result <;> rfl

theorem Race.startedAt_endWith (race : Race) (result : Except StorageError Recorded)
    (now : Timestamp) : (race.endWith result now).startedAt = race.startedAt := by
  cases result <;> rfl

theorem Race.shows_finish (race : Race) (last : Recorded) : (race.finish last).Shows last.sample :=
  ⟨rfl, rfl, rfl, rfl⟩

theorem Race.Shows.finishAt {race : Race} {sample : Sample} (h : race.Shows sample)
    (now : Timestamp) : (race.finishAt now).Shows sample :=
  ⟨h.bestLap_eq, h.raceTime_eq, h.position_eq, h.distanceTraveled_eq⟩

namespace World

theorem samplesOf_upsert (world : World MemoryStore) (races : List Race) :
    (world.answer (.upsert races)).2.store.samplesOf = world.store.samplesOf := by
  unfold answer call act
  dsimp only
  split <;> rfl

theorem store_last (world : World MemoryStore) (race : Uuid) :
    (world.answer (.last race)).2.store = world.store := rfl

theorem store_publish (world : World MemoryStore) (event : Event) :
    (world.answer (.publish event)).2.store = world.store := rfl

theorem store_clock (world : World MemoryStore) :
    (world.answer .clock).2.store = world.store := rfl

theorem store_freshId (world : World MemoryStore) :
    (world.answer .freshId).2.store = world.store := rfl

theorem outage_answer {σ : Type} [Store σ] (world : World σ) (request : Request) :
    (world.answer request).2.outage = world.outage := by
  cases request with
  | insert | upsert =>
      unfold answer call act
      dsimp only
      split <;> rfl
  | last | publish | clock | freshId => rfl

theorem outage_run {σ α : Type} [Store σ] (script : Script α) (world : World σ) :
    (script.run answer world).2.outage = world.outage := by
  induction script generalizing world with
  | done result => rfl
  | ask request next ih => exact (ih _ _).trans (world.outage_answer request)

end World

/-- How a race ends: with the aggregates and the receipt time of the sample that the store answers,
or as it is and now, when the question fails or nothing is stored. -/
theorem Session.run_finished_eq (race : Race) (world : World MemoryStore) :
    ∃ result world', (Session.finished race).run World.answer world =
        (race.endWith result (world.readings world.read), world') ∧
      world.Extends world' [.last race.id result] [] 0 ∧ world'.store = world.store ∧
      result = if world.outage world.called .lastSample then .error Outage.error
        else lastOf race.id (world.store.samplesOf race.id) := by
  have hextends := world.extends_last race.id
  have hanswer : (world.answer (.last race.id)).1 =
      if world.outage world.called .lastSample then .error Outage.error
      else lastOf race.id (world.store.samplesOf race.id) := rfl
  unfold Session.finished
  simp only [Script.run_bind, Script.run_last]
  cases hresult : (world.answer (.last race.id)).1 with
  | ok last =>
      rw [hresult] at hextends
      exact ⟨.ok last, _, rfl, hextends, rfl, hresult.symm.trans hanswer⟩
  | error failure =>
      rw [hresult] at hextends
      exact ⟨.error failure, _, rfl, hextends.trans (World.extends_clock _), rfl,
        hresult.symm.trans hanswer⟩

/-- An operation finishes the open race of a session: after a flush it asks for the last sample, and
stores the race that ended, at a boundary together with the next one. -/
structure Finishes (before after : Session × World MemoryStore) (ended : Race)
    (result : Except StorageError Recorded) (next : List Race) : Prop where
  ended_eq : ∃ race, before.1.race = some race ∧
    ended = (before.1.refreshed race).endWith result (before.2.readings before.2.read)
  calls_eq : after.2.calls = before.2.calls ++
    (before.1.flushCalls ++ [.last ended.id result, .upsert (ended :: next)])
  answered : ∃ n, result = if before.2.outage n .lastSample then .error Outage.error
    else lastOf ended.id (after.2.store.samplesOf ended.id)

section Operations

variable {state : Session × World MemoryStore} {race : Race}

/-- What is left to do once a race was flushed and the question for its last sample answered. -/
theorem finishes_of_answer {after : Session × World MemoryStore} {asked : World MemoryStore}
    {result : Except StorageError Recorded} {ended : Race} {next : List Race}
    {events : List Event} {taken : Nat} (hrace : state.1.race = some race)
    (hended : ended = (state.1.refreshed race).endWith result
      ((flush state).2.readings (flush state).2.read))
    (hasked : (flush state).2.Extends asked [.last (state.1.refreshed race).id result] [] 0)
    (hresult : result =
      if (flush state).2.outage (flush state).2.called .lastSample then .error Outage.error
      else lastOf (state.1.refreshed race).id
        ((flush state).2.store.samplesOf (state.1.refreshed race).id))
    (hafter : asked.Extends after.2 [.upsert (ended :: next)] events taken)
    (hstore : after.2.store.samplesOf = (flush state).2.store.samplesOf) :
    Finishes state after ended result next ∧ after.2.events = state.2.events ++ events := by
  have hreads := reads_flush state
  have houtage : (flush state).2.outage = state.2.outage :=
    World.outage_run state.1.checkpoint state.2
  have hextends := (extends_flush state).trans (hasked.trans hafter)
  rw [hreads.readings_eq, hreads.read_eq, Nat.add_zero] at hended
  have hid : ended.id = (state.1.refreshed race).id := by rw [hended, Race.id_endWith]
  refine ⟨⟨⟨race, hrace, hended⟩, ?_, (flush state).2.called, ?_⟩, ?_⟩
  · rw [hextends.calls_eq, hid]
    rfl
  · rw [hresult, houtage, hid, hstore]
  · simpa using hextends.events_eq

theorem finishes_close (hrace : state.1.race = some race) :
    ∃ ended result, Finishes state (World.perform .close state) ended result [] ∧
      (World.perform .close state).2.events = state.2.events ++ [⟨.finished, ended⟩] := by
  obtain ⟨result, asked, hask, hasked, hstore, hresult⟩ :=
    Session.run_finished_eq (state.1.refreshed race) (flush state).2
  have hflush : state.1.checkpoint.run World.answer state.2 = flush state := rfl
  generalize hended : (state.1.refreshed race).endWith result
    ((flush state).2.readings (flush state).2.read) = ended at hask
  have hperform : (World.perform .close state).2 =
      ((asked.answer (.upsert [ended])).2.answer (.publish ⟨.finished, ended⟩)).2 := by
    change (state.1.close.run World.answer state.2).2 = _
    unfold Session.close
    simp only [hrace, Script.run_bind, hflush, race_flush hrace, hask, Script.run_upsert,
      Script.run_publish]
    rfl
  have hafter : asked.Extends (World.perform .close state).2 [.upsert [ended]]
      [⟨.finished, ended⟩] 0 := by
    rw [hperform]
    exact (World.extends_upsert _ _).trans (World.extends_publish _ _)
  refine ⟨ended, result, finishes_of_answer hrace hended.symm hasked hresult hafter ?_⟩
  rw [hperform, World.store_publish, World.samplesOf_upsert, hstore]

theorem finishes_boundary {sample : Sample} (hrace : state.1.race = some race)
    (haccepts : Session.accepts sample = true) (hnew : race.isNewRace sample = true) :
    ∃ ended result next, Finishes state (World.perform (.add sample) state) ended result [next] ∧
      (World.perform (.add sample) state).2.events =
        state.2.events ++ [⟨.finished, ended⟩, ⟨.started, next⟩] := by
  obtain ⟨hon, hlap⟩ := Session.accepts_eq_true_iff.mp haccepts
  obtain ⟨result, asked, hask, hasked, hstore, hresult⟩ :=
    Session.run_finished_eq (state.1.refreshed race) (flush state).2
  have hflush : state.1.checkpoint.run World.answer state.2 = flush state := rfl
  generalize hended : (state.1.refreshed race).endWith result
    ((flush state).2.readings (flush state).2.read) = ended at hask
  generalize hstarted : ((asked.answer .freshId).2.answer .clock).2 = started
  obtain ⟨next, hstart⟩ : ∃ next, ((flush state).1.startRace sample).run World.answer asked =
      (next, started) := ⟨_, congrArg (Prod.mk _) hstarted⟩
  have hperform : (World.perform (.add sample) state).2 =
      ((((started.answer (.upsert [ended, next])).2.answer (.publish ⟨.finished, ended⟩)).2.answer
        (.publish ⟨.started, next⟩)).2.answer .clock).2 := by
    change ((state.1.add sample).run World.answer state.2).2 = _
    unfold Session.add Session.enter Session.nextRace
    simp only [hon, hlap, hrace, hnew, Bool.not_true, Bool.false_eq_true, if_false, if_true,
      Script.run_bind, hflush, race_flush hrace, hask, hstart, Script.run_upsert,
      Script.run_publish]
    rfl
  have hafter : asked.Extends (World.perform (.add sample) state).2 [.upsert [ended, next]]
      [⟨.finished, ended⟩, ⟨.started, next⟩] 1 := by
    rw [hperform, ← hstarted]
    exact ((World.extends_freshId _).trans (World.extends_clock _)).trans
      ((World.extends_upsert _ _).trans ((World.extends_publish _ _).trans
        ((World.extends_publish _ _).trans (World.extends_clock _))))
  refine ⟨ended, result, next, finishes_of_answer hrace hended.symm hasked hresult hafter ?_⟩
  rw [hperform, World.store_clock, World.store_publish, World.store_publish,
    World.samplesOf_upsert, ← hstarted, World.store_clock, World.store_freshId, hstore]

/-- Whenever a finished race is published, an operation finished it. -/
theorem exists_finishes {operation : Operation} {events : List Event} {ended : Race}
    (hevents : (World.perform operation state).2.events = state.2.events ++ events)
    (hended : ⟨.finished, ended⟩ ∈ events) :
    ∃ result next, Finishes state (World.perform operation state) ended result next := by
  obtain ⟨calls, published, taken, hmove, hextends⟩ :=
    World.exists_move operation state.1 state.2
  have hsame : published = events :=
    List.append_cancel_left (hextends.events_eq.symm.trans hevents)
  generalize (World.perform operation (state.1, state.2)).1 = after at hmove
  cases hmove with
  | staysOff | waitsOnGrid | closesIdle | flushes =>
      rw [← hsame] at hended
      cases hended
  | pauses =>
      rw [← hsame, List.mem_singleton] at hended
      cases hended
  | closes current _ _ hcurrent =>
      obtain ⟨race, hrace, -⟩ := Option.map_eq_some_iff.mp hcurrent
      obtain ⟨other, result, hfinishes, hother⟩ := finishes_close hrace
      rw [List.append_cancel_left (hevents.symm.trans hother), List.mem_singleton] at hended
      cases hended
      exact ⟨result, [], hfinishes⟩
  | accepts sample haccepts _ _ _ ready _ _ hentry =>
      cases hentry with
      | opens | resumes =>
          rw [← hsame, List.mem_singleton] at hended
          cases hended
      | continues =>
          rw [← hsame] at hended
          cases hended
      | crosses race _ _ _ _ hrace hnew =>
          obtain ⟨other, result, next, hfinishes, hother⟩ :=
            finishes_boundary hrace haccepts hnew
          rw [List.append_cancel_left (hevents.symm.trans hother)] at hended
          rcases List.mem_cons.mp hended with hfirst | hsecond
          · cases hfirst
            exact ⟨result, [next], hfinishes⟩
          · cases List.mem_singleton.mp hsecond

end Operations

/-! ## Stores without failures -/

/-- The samples that some calls insert for a race. -/
def insertedFor (calls : List Call) (id : Uuid) : List Recorded :=
  calls.flatMap fun
    | .insert race samples => if id = race.id then samples else []
    | .upsert _ | .last _ _ => []

theorem insertedFor_append (first second : List Call) (id : Uuid) :
    insertedFor (first ++ second) id = insertedFor first id ++ insertedFor second id :=
  List.flatMap_append

/-- Proper calls insert for a race what carries its identifier. -/
theorem insertedFor_of_proper {calls : List Call} (h : ∀ call ∈ calls, call.Proper) (id : Uuid) :
    insertedFor calls id = flushedFor calls id := by
  induction calls with
  | nil => rfl
  | cons call calls ih =>
      have hrest := ih fun other hother => h other (List.mem_cons_of_mem _ hother)
      have hfirst := h call List.mem_cons_self
      have hone : insertedFor [call] id = flushedFor [call] id := by
        cases call with
        | upsert | last => rfl
        | insert race samples =>
            simp only [insertedFor, flushedFor, handedOver, Call.samples, List.flatMap_cons,
              List.flatMap_nil, List.append_nil]
            by_cases hsame : id = race.id
            · rw [if_pos hsame, List.filter_eq_self.mpr]
              intro recorded hrecorded
              rw [hfirst.2 recorded hrecorded, hsame, beq_self_eq_true]
            · rw [if_neg hsame, List.filter_eq_nil_iff.mpr]
              intro recorded hrecorded
              rw [hfirst.2 recorded hrecorded, beq_iff_eq]
              exact Ne.symm hsame
      rw [← List.singleton_append, insertedFor_append, flushedFor_append, hone, hrest]

/-- No call fails, and a store in memory holds what was inserted, after what it held at first. -/
structure World.Stocked (initial : MemoryStore) (world : World MemoryStore) : Prop where
  works : ∀ n method, world.outage n method = false
  samplesOf_eq : ∀ id, world.store.samplesOf id =
    initial.samplesOf id ++ insertedFor world.calls id

section Stocked

variable {initial : MemoryStore} {world : World MemoryStore}

theorem World.Stocked.answer (h : world.Stocked initial) (request : Request) :
    (world.answer request).2.Stocked initial := by
  have hworks : ∀ n method, (world.answer request).2.outage n method = false := by
    rw [world.outage_answer]
    exact h.works
  refine ⟨hworks, fun id => ?_⟩
  cases request with
  | insert race samples =>
      have hfails : world.fails (.insert race samples) = false := h.works _ _
      have hstore : (world.answer (.insert race samples)).2.store =
          world.store.insert race samples := by
        simp only [World.answer, World.call, hfails, World.act, World.note, Bool.false_eq_true,
          if_false]
        rfl
      rw [hstore, DirectoryStore.samplesOf_insert, h.samplesOf_eq,
        (world.extends_insert race samples).calls_eq, insertedFor_append]
      by_cases hsame : id = race.id <;> simp [insertedFor, hsame]
  | upsert races =>
      rw [World.samplesOf_upsert, h.samplesOf_eq, (world.extends_upsert races).calls_eq,
        insertedFor_append]
      exact (List.append_nil _).symm.trans (List.append_assoc _ _ _)
  | last race =>
      rw [World.store_last, h.samplesOf_eq, (world.extends_last race).calls_eq,
        insertedFor_append]
      exact (List.append_nil _).symm.trans (List.append_assoc _ _ _)
  | publish event => exact h.samplesOf_eq id
  | clock => exact h.samplesOf_eq id
  | freshId => exact h.samplesOf_eq id

theorem World.Stocked.run {α : Type} (h : world.Stocked initial) (script : Script α) :
    (script.run World.answer world).2.Stocked initial := by
  induction script generalizing world with
  | done result => exact h
  | ask request next ih => exact ih _ (h.answer request)

theorem World.Stocked.performAll {state : Session × World MemoryStore}
    (h : state.2.Stocked initial) (operations : List Operation) :
    (World.performAll operations state).2.Stocked initial := by
  induction operations generalizing state with
  | nil => exact h
  | cons operation operations ih => exact ih (h.run (operation.script state.1))

end Stocked

/-! ## Runs -/

section Runs

theorem World.readings_performAll {σ : Type} [Store σ] (operations : List Operation)
    (state : Session × World σ) :
    (World.performAll operations state).2.readings = state.2.readings := by
  induction operations generalizing state with
  | nil => rfl
  | cons operation operations ih =>
      obtain ⟨n, hreads⟩ := World.exists_reads_run (operation.script state.1) state.2
      exact (ih _).trans hreads.readings_eq

/-- No sample was received before an earlier one. -/
def InOrder (samples : List Recorded) : Prop :=
  samples.Pairwise fun first second => first.createdAt ≤ second.createdAt

/-- Of samples in order, the first was received no later than the last. -/
theorem InOrder.exists_head? {front : List Recorded} {last : Recorded}
    (h : InOrder (front ++ [last])) :
    ∃ first, (front ++ [last]).head? = some first ∧ first.createdAt ≤ last.createdAt := by
  cases front with
  | nil => exact ⟨last, rfl, Int.le_refl _⟩
  | cons first front => exact ⟨first, rfl, (List.pairwise_cons.mp h).1 last (by simp)⟩

/-- The samples of a race end with the last one of all, if that is its own. -/
theorem exists_own_eq {samples : List Recorded} {accepted : Recorded} {id : Uuid}
    (hlast : samples.getLast? = some accepted) (htag : accepted.race = id) :
    ∃ front, samples.filter (fun recorded => recorded.race == id) = front ++ [accepted] := by
  obtain ⟨front, rfl⟩ := List.getLast?_eq_some_iff.mp hlast
  refine ⟨front.filter fun recorded => recorded.race == id, ?_⟩
  rw [List.filter_append]
  simp [htag]

/-- While the clock does not go back, samples are received in order, and the open race started no
later than its last sample was received. -/
theorem Clocked.inOrder {σ : Type} {state : Session × World σ} {stamps : List Nat}
    (h : Clocked state stamps)
    (hclock : ∀ i j, i ≤ j → j < state.2.read → state.2.readings i ≤ state.2.readings j) :
    InOrder (ledger state) ∧ ∀ race last, state.1.race = some race →
      (ledger state).getLast? = some last → race.startedAt ≤ last.createdAt := by
  constructor
  · have hreceipts : ((ledger state).map Recorded.createdAt).Pairwise (· ≤ ·) := by
      rw [h.receipts_eq, List.pairwise_map]
      refine h.ascending.imp_of_mem ?_
      intro i j _ hj hlt
      exact hclock i j (Nat.le_of_lt hlt) (h.lt_read j hj)
    rwa [List.pairwise_map] at hreceipts
  · intro race last hrace hlast
    obtain ⟨start, stamp, hstamp, hlt, hstarted⟩ := h.started race hrace
    have hreceipt : last.createdAt = state.2.readings stamp := by
      have hend := congrArg List.getLast? h.receipts_eq
      rw [List.getLast?_map, List.getLast?_map, hlast, hstamp] at hend
      exact Option.some.inj hend
    rw [hstarted, hreceipt]
    exact hclock start stamp (Nat.le_of_lt hlt) (h.lt_read stamp (List.mem_of_getLast? hstamp))

variable {before after : Session × World MemoryStore} {ended : Race}
  {result : Except StorageError Recorded} {next : List Race}

/-- The store answers with the latest of the stored samples. -/
theorem Finishes.isLatest (h : Finishes before after ended result next) {last : Recorded}
    (hresult : result = .ok last) : IsLatest (after.2.store.samplesOf ended.id) last := by
  obtain ⟨n, hanswered⟩ := h.answered
  rw [hresult] at hanswered
  split at hanswered
  · cases hanswered
  · unfold lastOf at hanswered
    split at hanswered
    · rename_i sample hlatest
      cases hanswered
      exact isLatest_of_latest? hlatest
    · cases hanswered

/-- Without failures all samples that were accepted for a race are stored when it is finished. -/
theorem Finishes.samplesOf_eq {initial : MemoryStore}
    (h : Finishes before after ended result next) (hcoherent : before.1.Coherent)
    (hproper : ∀ call ∈ after.2.calls, call.Proper) (hstocked : after.2.Stocked initial) :
    after.2.store.samplesOf ended.id =
      initial.samplesOf ended.id ++ (ledger before).filter fun recorded =>
        recorded.race == ended.id := by
  have hhanded : handedOver after.2.calls = ledger before := by
    rw [h.calls_eq, handedOver_append, hcoherent.handedOver_flushCalls_append rfl]
    rfl
  rw [hstocked.samplesOf_eq, insertedFor_of_proper hproper, flushedFor, hhanded]

/-- When a race is finished, the last sample that was accepted is one of its own, and a flush gave
the race its aggregates. -/
theorem Finishes.exists_accepted (h : Finishes before after ended result next)
    (hbefore : UpToDate before) : ∃ race accepted, before.1.race = some race ∧
      (ledger before).getLast? = some accepted ∧ accepted.race = ended.id ∧
      ended = (before.1.refreshed race).endWith result (before.2.readings before.2.read) ∧
      (before.1.refreshed race).Shows accepted.sample := by
  obtain ⟨race, hrace, hended⟩ := h.ended_eq
  obtain ⟨accepted, hlast, htag, hshows⟩ := hbefore.exists_last race hrace
  refine ⟨race, accepted, hrace, hlast, ?_, hended, hshows⟩
  rw [htag, hended, Race.id_endWith, Session.id_refreshed]

/-- Without failures the question for the last sample has an answer. If the store had nothing of the
race before and its samples were received in order, it is the last one that was accepted. -/
theorem Finishes.result_eq {initial : MemoryStore} (h : Finishes before after ended result next)
    (hcoherent : before.1.Coherent) (hproper : ∀ call ∈ after.2.calls, call.Proper)
    (hstocked : after.2.Stocked initial) (hworks : ∀ n method, before.2.outage n method = false)
    {accepted : Recorded} (hlast : (ledger before).getLast? = some accepted)
    (htag : accepted.race = ended.id) :
    (∃ last, result = .ok last) ∧ (initial.samplesOf ended.id = [] →
      InOrder ((ledger before).filter fun recorded => recorded.race == ended.id) →
      result = .ok accepted) := by
  obtain ⟨n, hanswered⟩ := h.answered
  rw [hworks, if_neg Bool.false_ne_true, h.samplesOf_eq hcoherent hproper hstocked] at hanswered
  obtain ⟨front, hown⟩ := exists_own_eq hlast htag
  rw [hown] at hanswered ⊢
  constructor
  · cases hlatest : latest? (initial.samplesOf ended.id ++ (front ++ [accepted])) with
    | none => simp [latest?_eq_none_iff] at hlatest
    | some last => exact ⟨last, by rw [hanswered, lastOf, hlatest]⟩
  · intro hempty horder
    rw [hanswered, hempty, List.nil_append, lastOf, latest?_of_pairwise horder]

/-- **The final values of a race are the right ones under every failure pattern.** Whichever calls
of a store in memory fail, a race that is finished was asked for its last sample once. If that was
answered, it has the aggregates of the stored sample of the race with the greatest receipt time, the
last among equals, and was finished when that was received. If it failed, for whatever reason, the
race has the aggregates of its last accepted sample, and was finished at the next reading of the
clock. If nothing fails, the question is answered; and where the race was not stored before and its
samples were received in order, the answer is its last accepted sample. A start is a reading of the
clock of its own, before the first sample is received; so the race is not finished before it was
started if the clock did not go back between these two, in particular if it never does. -/
theorem finished_with_final_values (store : MemoryStore) (outage : Outage)
    (readings : Nat → Timestamp) (ids : Nat → Uuid) (id : Uuid) (capacity : Nat)
    (earlier : List Operation) (operation : Operation) (events : List Event) (ended : Race) :
    let before := World.performAll earlier
      (Session.fresh id capacity, World.fresh store outage readings ids)
    let after := World.perform operation before
    let own := (ledger before).filter fun recorded => recorded.race == ended.id
    after.2.events = before.2.events ++ events → ⟨.finished, ended⟩ ∈ events →
    ∃ accepted result next,
      (ledger before).getLast? = some accepted ∧ accepted.race = ended.id ∧
      (acceptedSamples earlier).getLast? = some accepted.sample ∧
      after.2.calls = before.2.calls ++
        (before.1.flushCalls ++ [.last ended.id result, .upsert (ended :: next)]) ∧
      (∀ last, result = .ok last → IsLatest (after.2.store.samplesOf ended.id) last ∧
        ended.Shows last.sample ∧ ended.finishedAt = some last.createdAt) ∧
      (∀ failure, result = .error failure → ended.Shows accepted.sample ∧
        ended.finishedAt = some (readings before.2.read)) ∧
      ((∀ n method, outage n method = false) → (∃ last, result = .ok last) ∧
        (store.samplesOf ended.id = [] →
          (InOrder own →
            ended.Shows accepted.sample ∧ ended.finishedAt = some accepted.createdAt ∧
            ((∀ first, own.head? = some first → ended.startedAt ≤ first.createdAt) →
              ended.startedAt ≤ accepted.createdAt)) ∧
          ((∀ i j, i ≤ j → j < before.2.read → readings i ≤ readings j) →
            InOrder own ∧ ended.startedAt ≤ accepted.createdAt))) := by
  intro before after own hevents hended
  let start := (Session.fresh id capacity, World.fresh store outage readings ids)
  have hbefore : UpToDate before :=
    (upToDate_fresh store outage readings ids id capacity).performAll earlier
  obtain ⟨stamps, hclocked⟩ : ∃ stamps, Clocked before stamps :=
    (clocked_fresh store outage readings ids id capacity).performAll
      (upToDate_fresh store outage readings ids id capacity) earlier
  have hreadings : before.2.readings = readings := World.readings_performAll earlier start
  obtain ⟨result, next, hfinishes⟩ := exists_finishes hevents hended
  obtain ⟨race, accepted, hrace, hlast, htag, hvalues, hshows⟩ :=
    hfinishes.exists_accepted hbefore
  rw [hreadings] at hvalues
  obtain ⟨-, -, filed, hledger, hfiled⟩ := performAll_filing earlier start.1 start.2
    (Session.coherent_fresh id capacity) (by simp [start, World.fresh])
  refine ⟨accepted, result, next, hlast, htag, ?_, hfinishes.calls_eq, ?_, ?_, ?_⟩
  · have hsamples : (ledger before).map Recorded.sample = acceptedSamples earlier := by
      rw [hledger, ← hfiled]
      rfl
    rw [← hsamples, List.getLast?_map, hlast]
    rfl
  · intro last hresult
    rw [hresult] at hvalues
    refine ⟨hfinishes.isLatest hresult, ?_, ?_⟩
    · rw [hvalues]
      exact Race.shows_finish _ last
    · rw [hvalues]
      rfl
  · intro failure hresult
    rw [hresult] at hvalues
    refine ⟨?_, ?_⟩
    · rw [hvalues]
      exact hshows.finishAt _
    · rw [hvalues]
      rfl
  · intro hworks
    have hstart : start.2.Stocked store := ⟨hworks, fun _ => (List.append_nil _).symm⟩
    have hstocked : before.2.Stocked store := hstart.performAll earlier
    have hproper : ∀ call ∈ after.2.calls, call.Proper := by
      have hall := (performAll_filing (earlier ++ [operation]) start.1 start.2
        (Session.coherent_fresh id capacity) (by simp [start, World.fresh])).2.1
      rwa [World.performAll_append] at hall
    obtain ⟨hanswered, hin⟩ := hfinishes.result_eq hbefore.coherent hproper
      (hstocked.run (operation.script before.1)) hstocked.works hlast htag
    refine ⟨hanswered, fun hnew => ⟨fun horder => ?_, fun hclock => ?_⟩⟩
    · obtain ⟨front, hown⟩ : ∃ front, own = front ++ [accepted] := exists_own_eq hlast htag
      obtain ⟨first, hfirst, hle⟩ := InOrder.exists_head? (hown ▸ horder)
      rw [← hown] at hfirst
      rw [hin hnew horder] at hvalues
      refine ⟨?_, ?_, fun hstarted => Timestamp.le_trans (hstarted first hfirst) hle⟩
      · rw [hvalues]
        exact Race.shows_finish _ accepted
      · rw [hvalues]
        rfl
    · rw [← hreadings] at hclock
      obtain ⟨horder, hstarted⟩ := hclocked.inOrder hclock
      refine ⟨horder.filter _, ?_⟩
      rw [hvalues, Race.startedAt_endWith,
        (Race.continues_refreshed before.1 race).startedAt_eq]
      exact hstarted race accepted hrace hlast

/-- A clock that shows one second more at every reading. -/
def ticking (n : Nat) : Timestamp := .ofEpoch n 0

/-- A clock that was set back once, after the first reading. -/
def setBack (n : Nat) : Timestamp := .ofEpoch (([10, 5] : List Nat).getD n (n + 4)) 0

/-- That samples are received in order does not keep a race from being finished before it was started:
the clock may go back between the start and the receipt of the first sample. -/
theorem finished_before_started :
    let before := World.performAll [.add (.lapping .one), .add (.lapping .one)]
      (Session.fresh (.ofNat 0) 350, World.fresh MemoryStore.empty .none setBack .ofNat)
    let after := World.perform .close before
    InOrder (ledger before) ∧ ∃ ended, after.2.events = before.2.events ++ [⟨.finished, ended⟩] ∧
      ended.startedAt = .ofEpoch 10 0 ∧ ended.finishedAt = some (.ofEpoch 6 0) ∧
      ¬Timestamp.ofEpoch 10 0 ≤ .ofEpoch 6 0 := by
  intro before after
  have hledger : ledger before =
      [⟨.lapping .one, .ofNat 0, .ofEpoch 5 0⟩, ⟨.lapping .one, .ofNat 0, .ofEpoch 6 0⟩] := rfl
  refine ⟨?_, _, rfl, rfl, rfl, by decide⟩
  rw [hledger]
  exact List.pairwise_pair.mpr (by decide)

/-- Two samples and then one that begins the next race. While all calls work, the race that ends has
the values of the second sample and was finished when that was received, after its start; and if the
question for the last sample fails, it was finished at the reading after that. -/
theorem final_values_at_boundary :
    let before := fun outage => World.performAll
      [.add (.lapping .one), .add (.lapping .one)]
      (Session.fresh (.ofNat 0) 350, World.fresh MemoryStore.empty outage ticking .ofNat)
    let after := fun outage => World.perform (.add (.lapping .zero)) (before outage)
    (∃ ended, ⟨.finished, ended⟩ ∈ (after .none).2.events ∧ ended.Shows (.lapping .one) ∧
      ended.finishedAt = some (ticking 2) ∧ ended.startedAt ≤ ticking 2) ∧
    ∃ ended, ⟨.finished, ended⟩ ∈ (after (.ofMethods [.lastSample])).2.events ∧
      ended.Shows (.lapping .one) ∧ ended.finishedAt = some (ticking 3) := by
  intro before after
  have hboundary : ∀ outage, (before outage).1.race.map Race.raceTime = some .one →
      ∃ ended next, (after outage).2.events =
        (before outage).2.events ++ [⟨.finished, ended⟩, ⟨.started, next⟩] := by
    intro outage htime
    obtain ⟨race, hrace, hone⟩ := Option.map_eq_some_iff.mp htime
    have hnew : race.isNewRace (.lapping .zero) = true := by
      simp only [Race.isNewRace, hone]
      decide +kernel
    obtain ⟨ended, _, next, -, hevents⟩ :=
      finishes_boundary hrace (show Session.accepts (.lapping .zero) = true by decide) hnew
    exact ⟨ended, next, hevents⟩
  constructor
  · obtain ⟨ended, next, hevents⟩ := hboundary .none rfl
    have hlast : (ledger (before .none)).getLast? =
        some ⟨.lapping .one, .ofNat 0, ticking 2⟩ := rfl
    have hclock : ∀ j < 3, ∀ i ≤ j, ticking i ≤ ticking j := by decide
    obtain ⟨accepted, _, _, haccepted, -, -, -, -, -, hvalues⟩ :=
      finished_with_final_values .empty .none ticking .ofNat (.ofNat 0) 350
        [.add (.lapping .one), .add (.lapping .one)] (.add (.lapping .zero)) _ ended hevents
        List.mem_cons_self
    cases haccepted.symm.trans hlast
    obtain ⟨hown, hinOrder⟩ := (hvalues fun _ _ => rfl).2 rfl
    obtain ⟨horder, hstarted⟩ := hinOrder fun i j hij hj => hclock j hj i hij
    obtain ⟨hshows, hfinished, -⟩ := hown horder
    refine ⟨ended, ?_, hshows, hfinished, hstarted⟩
    rw [hevents]
    exact List.mem_append_right _ List.mem_cons_self
  · obtain ⟨ended, next, hevents⟩ := hboundary (.ofMethods [.lastSample]) rfl
    have hlast : (ledger (before (.ofMethods [.lastSample]))).getLast? =
        some ⟨.lapping .one, .ofNat 0, ticking 2⟩ := rfl
    obtain ⟨accepted, result, _, haccepted, -, -, hcalls, -, hfailed, -⟩ :=
      finished_with_final_values .empty (.ofMethods [.lastSample]) ticking .ofNat (.ofNat 0) 350
        [.add (.lapping .one), .add (.lapping .one)] (.add (.lapping .zero)) _ ended hevents
        List.mem_cons_self
    cases haccepted.symm.trans hlast
    -- the question is the fourth call, after the start of the race and the flush
    have hasked : some (Call.last ended.id result) =
        some (.last (.ofNat 0) (.error Outage.error)) := congrArg (·[3]?) hcalls.symm
    obtain ⟨-, hresult⟩ := Call.last.inj (Option.some.inj hasked)
    obtain ⟨hshows, hfinished⟩ := hfailed _ hresult
    refine ⟨ended, ?_, hshows, hfinished⟩
    rw [hevents]
    exact List.mem_append_right _ List.mem_cons_self

end Runs

end RaceIngest
