import RaceIngest.Proofs.Session.Checkpoints

/-!
# What is known of the last receipt

Two things are kept up while samples come in, whatever the store answers and whichever of its calls
fail. The open race is always that of the last accepted sample, and a flush gives it the aggregates
of that sample, also while nothing waits because the race is paused. And every accepted sample was
received at a reading of the clock of its own, later than the reading at which its race started.

## Main definitions

* `Race.Shows`: a race has the aggregates of a sample.
* `UpToDate`, `Clocked`: the two invariants.

## Main results

* `UpToDate.performAll`, `Clocked.performAll`: every run keeps them.
-/

namespace RaceIngest

open Calendar

/-! ## Aggregates -/

namespace Race

/-- A race has the aggregates of a sample. -/
structure Shows (race : Race) (sample : Sample) : Prop where
  bestLap_eq : race.bestLap = sample.bestLap
  raceTime_eq : race.raceTime = sample.currentRaceTime
  position_eq : race.position = sample.racePosition
  distanceTraveled_eq : race.distanceTraveled = sample.distanceTraveled

theorem shows_update (race : Race) (sample : Sample) : (race.update sample).Shows sample :=
  ⟨rfl, rfl, rfl, rfl⟩

end Race

/-! ## The race of the last accepted sample -/

section Last

variable {σ : Type} {session after : Session} {world world' : World σ} {id : Uuid}
  {operation : Operation} {calls : List Call} {events : List Event} {taken : Nat}

/-- What a move adds to the ledger of a session in its world. -/
theorem Session.Move.ledger_append (hmove : session.Move id operation calls events taken after)
    (hextends : world.Extends world' calls events taken) (hsession : session.Coherent) :
    ∃ filed, ledger (after, world') = ledger (session, world) ++ filed ∧
      filed.map Recorded.sample = operation.accepted?.toList := by
  obtain ⟨filed, hfiled, hsamples⟩ := hmove.ledger_eq hsession
  refine ⟨filed, ?_, hsamples⟩
  simp only [ledger, hextends.calls_eq, handedOver_append, List.append_assoc, hfiled]

/-- An open race is that of the last accepted sample, and a flush gives it the aggregates of that
sample. -/
structure UpToDate (state : Session × World σ) : Prop where
  coherent : state.1.Coherent
  exists_last : ∀ race, state.1.race = some race → ∃ last, (ledger state).getLast? = some last ∧
    last.race = race.id ∧ (state.1.refreshed race).Shows last.sample

theorem upToDate_fresh (store : σ) (outage : Outage) (readings : Nat → Timestamp)
    (ids : Nat → Uuid) (id : Uuid) (capacity : Nat) :
    UpToDate (Session.fresh id capacity, World.fresh store outage readings ids) :=
  ⟨Session.coherent_fresh id capacity, fun _ hrace => by simp [Session.fresh] at hrace⟩

/-- Nothing has to be flushed when nothing waits. -/
theorem Session.refreshed_of_buffer_eq_nil (hbuffer : session.buffer = []) (race : Race) :
    session.refreshed race = race := by
  simp [refreshed, hbuffer]

/-- What accepts no sample only flushes the race, and pauses or ends it. -/
theorem UpToDate.keep (h : UpToDate (session, world)) (hcoherent : after.Coherent)
    (hledger : ledger (after, world') = ledger (session, world))
    (hrace : ∀ race', after.race = some race' → ∃ race, session.race = some race ∧
      race'.id = race.id ∧
      ∀ sample, (session.refreshed race).Shows sample → (after.refreshed race').Shows sample) :
    UpToDate (after, world') := by
  refine ⟨hcoherent, fun race' hrace' => ?_⟩
  obtain ⟨race, hbefore, hid, hshows⟩ := hrace race' hrace'
  obtain ⟨last, hlast, htag, haggregates⟩ := h.exists_last race hbefore
  exact ⟨last, hledger ▸ hlast, htag.trans hid.symm, hshows last.sample haggregates⟩

theorem UpToDate.move (h : UpToDate (session, world))
    (hmove : session.Move id operation calls events taken after)
    (hextends : world.Extends world' calls events taken) : UpToDate (after, world') := by
  have hcoherent := hmove.coherent h.coherent
  obtain ⟨filed, hledger, hfiled⟩ := hmove.ledger_append hextends h.coherent
  have hkept : operation.accepted? = none →
      ledger (after, world') = ledger (session, world) := by
    intro hnone
    rw [hnone] at hfiled
    rw [hledger, List.map_eq_nil_iff.mp hfiled, List.append_nil]
  cases hmove with
  | staysOff sample hoff =>
      exact h.keep hcoherent (hkept (accepted?_add_of_not_onTrack hoff))
        fun race hrace => ⟨race, hrace, rfl, fun _ hshows => hshows⟩
  | waitsOnGrid sample hon hgrid =>
      exact h.keep hcoherent (hkept (accepted?_add_of_grid hgrid))
        fun race hrace => ⟨race, hrace, rfl, fun _ hshows => hshows⟩
  | pauses sample hoff race current hrace hrunning hcurrent =>
      refine h.keep hcoherent (hkept (accepted?_add_of_not_onTrack hoff)) ?_
      intro race' hrace'
      have hrefreshed : current = session.refreshed race := by
        simpa [Session.flushed, hrace] using hcurrent.symm
      rw [Option.some.injEq] at hrace'
      refine ⟨race, hrace, ?_, fun sample hshows => ?_⟩
      · rw [← hrace', hrefreshed]
        exact session.id_refreshed race
      · rw [Session.refreshed_of_buffer_eq_nil rfl, ← hrace', hrefreshed]
        exact ⟨hshows.1, hshows.2, hshows.3, hshows.4⟩
  | flushes =>
      refine h.keep hcoherent (hkept rfl) ?_
      intro race' hrace'
      obtain ⟨race, hrace, rfl⟩ := Option.map_eq_some_iff.mp hrace'
      refine ⟨race, hrace, session.id_refreshed race, fun sample hshows => ?_⟩
      rwa [Session.refreshed_of_buffer_eq_nil rfl]
  | closesIdle =>
      exact h.keep hcoherent (hkept rfl)
        fun race hrace => ⟨race, hrace, rfl, fun _ hshows => hshows⟩
  | closes => exact h.keep hcoherent (hkept rfl) fun _ hnone => by simp at hnone
  | accepts sample haccepts _ _ _ ready race now hentry hrace =>
      refine ⟨hcoherent, fun race' hrace' => ?_⟩
      simp only [Session.recorded, Option.some.injEq] at hrace'
      refine ⟨⟨sample, race.id, now⟩, ?_, by rw [← hrace'], ?_⟩
      · simp [ledger, Session.recorded]
      · rw [← hrace']
        simpa [Session.refreshed, Session.recorded] using Race.shows_update _ sample

end Last

/-! ## Readings of the clock -/

theorem Session.accepts_eq_true_iff {sample : Sample} : Session.accepts sample = true ↔
    sample.onTrack = true ∧ sample.currentLap.isZero = false := by
  simp [accepts]

/-- Only a sample can be accepted. -/
theorem Operation.eq_add_of_accepted? {operation : Operation} {sample : Sample}
    (h : operation.accepted? = some sample) :
    operation = .add sample ∧ Session.accepts sample = true := by
  cases operation with
  | add other =>
      simp only [accepted?] at h
      split at h
      · cases h
        exact ⟨rfl, ‹_›⟩
      · cases h
  | checkpoint => cases h
  | close => cases h

section Readings

variable {σ : Type} [Store σ]

theorem World.exists_reads_run {α : Type} (script : Script α) (world : World σ) :
    ∃ n, world.Reads (script.run World.answer world).2 n := by
  induction script generalizing world with
  | done result => exact ⟨0, .refl world⟩
  | ask request next ih =>
      obtain ⟨n, hreads⟩ := ih (world.answer request).1 (world.answer request).2
      exact ⟨request.reads + n, (world.reads_answer request).trans hreads⟩

/-- The race that a session has after some script started when it did before, or at a reading of the
clock meanwhile. -/
def StartsMeanwhile (session : Session) (world : World σ) (entered : Session × World σ) : Prop :=
  ∀ race, entered.1.race = some race →
    (∃ earlier, session.race = some earlier ∧ race.startedAt = earlier.startedAt) ∨
    ∃ n, world.read ≤ n ∧ n < entered.2.read ∧ race.startedAt = world.readings n

/-- A race starts at the next reading of the clock. -/
theorem Session.run_startRace_clock (session : Session) (sample : Sample) (world : World σ) :
    ∃ world', (session.startRace sample).run World.answer world =
        (Race.start sample session.id (world.ids world.issued) (world.readings world.read),
          world') ∧
      world.Reads world' 1 :=
  ⟨_, rfl, (world.reads_answer .freshId).trans (World.reads_answer _ .clock)⟩

omit [Store σ] in
/-- A race that was started is stored and announced; the clock was read since. -/
theorem startsMeanwhile_of_reads {session : Session} {world world' last : World σ}
    {entered : Session × World σ} {sample : Sample} {sessionId id : Uuid} {before after : Nat}
    (hbefore : world.Reads world' before)
    (hrace : entered.1.race =
      some (Race.start sample sessionId id (world'.readings world'.read)))
    (hlast : world'.Reads last (1 + after)) (hentered : entered.2 = last) :
    StartsMeanwhile session world entered := by
  intro race hsome
  rw [hrace, Option.some.injEq] at hsome
  refine .inr ⟨world'.read, ?_, ?_, ?_⟩
  · rw [hbefore.read_eq]
    exact Nat.le_add_right _ _
  · rw [hentered, hlast.read_eq]
    omega
  · rw [← hsome, ← hbefore.readings_eq]
    rfl

theorem startsMeanwhile_openRace (session : Session) (sample : Sample) (world : World σ) :
    StartsMeanwhile session world ((session.openRace sample).run World.answer world) := by
  obtain ⟨started, hstart, hreads⟩ := session.run_startRace_clock sample world
  unfold Session.openRace
  simp only [Script.run_bind, hstart, Script.run_upsert, Script.run_publish]
  exact startsMeanwhile_of_reads (.refl world) rfl
    (hreads.trans ((World.reads_answer _ _).trans (World.reads_answer _ _))) rfl

theorem startsMeanwhile_nextRace {session : Session} {race : Race}
    (hrace : session.race = some race) (sample : Sample) (world : World σ) :
    StartsMeanwhile session world ((session.nextRace sample).run World.answer world) := by
  obtain ⟨flushed, hflush, -⟩ := session.run_checkpoint world
  obtain ⟨n, hflushed⟩ := World.exists_reads_run session.checkpoint world
  rw [hflush] at hflushed
  obtain ⟨m, hfinished⟩ :=
    World.exists_reads_run (Session.finished (session.refreshed race)) flushed
  obtain ⟨started, hstart, hreads⟩ := session.flushed.run_startRace_clock sample
    ((Session.finished (session.refreshed race)).run World.answer flushed).2
  have hcurrent : session.flushed.race = some (session.refreshed race) := by
    simp [Session.flushed, hrace]
  unfold Session.nextRace
  simp only [Script.run_bind, hflush, hcurrent, hstart, Script.run_upsert, Script.run_publish]
  exact startsMeanwhile_of_reads (hflushed.trans hfinished) rfl
    (hreads.trans ((World.reads_answer _ _).trans
      ((World.reads_answer _ _).trans (World.reads_answer _ _)))) rfl

theorem startsMeanwhile_enter (session : Session) (sample : Sample) (world : World σ) :
    StartsMeanwhile session world ((session.enter sample).run World.answer world) := by
  unfold Session.enter
  cases hrace : session.race with
  | none => exact startsMeanwhile_openRace session sample world
  | some race =>
      dsimp only
      split
      · exact startsMeanwhile_nextRace hrace sample world
      split
      · intro resumed hresumed
        refine .inl ⟨race, hrace, ?_⟩
        simp only [Session.resume, hrace, Script.run_bind, Script.run_upsert, Script.run_publish,
          Script.run_done, Script.pure_eq_done, Option.some.injEq] at hresumed
        rw [← hresumed]
      · exact fun same hsame => .inl ⟨same, hsame, rfl⟩

theorem Session.run_record {session : Session} {race : Race} (hrace : session.race = some race)
    (sample : Sample) (world : World σ) : (session.record sample).run World.answer world =
      (session.recorded sample race (world.readings world.read), (world.answer .clock).2) := by
  unfold Session.record
  rw [hrace]
  rfl

/-- An accepted sample is received at a reading of the clock, after its race was started. -/
theorem receipt_add {sample : Sample} (haccepts : Session.accepts sample = true)
    (state : Session × World σ) :
    ∃ n last, state.2.read ≤ n ∧ n < (World.perform (.add sample) state).2.read ∧
      (World.perform (.add sample) state).1.buffer.getLast? = some last ∧
      last.createdAt = state.2.readings n ∧
      ∀ race, (World.perform (.add sample) state).1.race = some race →
        (∃ earlier, state.1.race = some earlier ∧ race.startedAt = earlier.startedAt) ∨
        ∃ m, m < n ∧ race.startedAt = state.2.readings m := by
  obtain ⟨hon, hlap⟩ := Session.accepts_eq_true_iff.mp haccepts
  obtain ⟨_, _, _, hentry, -⟩ := state.1.yields_enter sample state.2
  obtain ⟨ready, hready⟩ := hentry.exists_race
  have hstarts := startsMeanwhile_enter state.1 sample state.2
  obtain ⟨n, hreads⟩ := World.exists_reads_run (state.1.enter sample) state.2
  have hperform : World.perform (.add sample) state =
      (((state.1.enter sample).run World.answer state.2).1.recorded sample ready
          (state.2.readings (state.2.read + n)),
        (((state.1.enter sample).run World.answer state.2).2.answer .clock).2) := by
    change (state.1.add sample).run World.answer state.2 = _
    unfold Session.add
    simp only [hon, hlap, Bool.not_true, Bool.false_eq_true, if_false, Script.run_bind]
    rw [Session.run_record hready, hreads.readings_eq, hreads.read_eq]
  rw [hperform]
  refine ⟨state.2.read + n, _, Nat.le_add_right _ _, ?_, List.getLast?_concat, rfl, ?_⟩
  · rw [(World.reads_answer _ .clock).read_eq, hreads.read_eq]
    exact Nat.lt_succ_self _
  · intro race hrace
    simp only [Session.recorded, Option.some.injEq] at hrace
    subst hrace
    rcases hstarts ready hready with hearlier | ⟨m, -, hlt, hstarted⟩
    · exact .inl hearlier
    · refine .inr ⟨m, ?_, hstarted⟩
      rwa [hreads.read_eq] at hlt

/-- Every accepted sample was received at a reading of the clock of its own, and the open race
started at an earlier one than the last of them. -/
structure Clocked (state : Session × World σ) (stamps : List Nat) : Prop where
  receipts_eq : (ledger state).map Recorded.createdAt = stamps.map state.2.readings
  ascending : stamps.Pairwise (· < ·)
  lt_read : ∀ n ∈ stamps, n < state.2.read
  started : ∀ race, state.1.race = some race → ∃ start last, stamps.getLast? = some last ∧
    start < last ∧ race.startedAt = state.2.readings start

omit [Store σ] in
theorem clocked_fresh (store : σ) (outage : Outage) (readings : Nat → Timestamp)
    (ids : Nat → Uuid) (id : Uuid) (capacity : Nat) :
    Clocked (Session.fresh id capacity, World.fresh store outage readings ids) [] :=
  ⟨rfl, .nil, by simp, fun _ hrace => by simp [Session.fresh] at hrace⟩

/-- What accepts no sample starts no race. -/
theorem Session.Move.startedAt_eq {id : Uuid} {session after : Session} {operation : Operation}
    {calls : List Call} {events : List Event} {taken : Nat}
    (hmove : session.Move id operation calls events taken after)
    (hnone : operation.accepted? = none) (race' : Race) (hrace' : after.race = some race') :
    ∃ race, session.race = some race ∧ race'.startedAt = race.startedAt := by
  have hrefreshed : ∀ current, session.flushed.race = some current →
      ∃ race, session.race = some race ∧ current.startedAt = race.startedAt := by
    intro current hcurrent
    obtain ⟨race, hrace, rfl⟩ := Option.map_eq_some_iff.mp hcurrent
    exact ⟨race, hrace, (Race.continues_refreshed session race).startedAt_eq⟩
  cases hmove with
  | staysOff | waitsOnGrid | closesIdle => exact ⟨race', hrace', rfl⟩
  | pauses _ _ _ current _ _ hcurrent =>
      obtain ⟨race, hrace, hstarted⟩ := hrefreshed current hcurrent
      rw [Option.some.injEq] at hrace'
      exact ⟨race, hrace, by rw [← hrace', ← hstarted]⟩
  | flushes => exact hrefreshed race' hrace'
  | closes => simp at hrace'
  | accepts sample haccepts => simp [Operation.accepted?, haccepts] at hnone

omit [Store σ] in
/-- What accepts no sample receives nothing. -/
theorem Clocked.keep {state after : Session × World σ} {stamps : List Nat} {count : Nat}
    (h : Clocked state stamps) (hreads : state.2.Reads after.2 count)
    (hledger : ledger after = ledger state)
    (hstarts : ∀ race', after.1.race = some race' →
      ∃ race, state.1.race = some race ∧ race'.startedAt = race.startedAt) :
    Clocked after stamps where
  receipts_eq := by rw [hledger, hreads.readings_eq, h.receipts_eq]
  ascending := h.ascending
  lt_read := by
    intro n hn
    rw [hreads.read_eq]
    exact Nat.lt_of_lt_of_le (h.lt_read n hn) (Nat.le_add_right _ _)
  started := by
    intro race' hrace'
    obtain ⟨race, hrace, hstarted⟩ := hstarts race' hrace'
    rw [hstarted, hreads.readings_eq]
    exact h.started race hrace

omit [Store σ] in
/-- A sample that is accepted is received at one more reading. -/
theorem Clocked.receive {state after : Session × World σ} {stamps : List Nat} {n : Nat}
    {last : Recorded} (h : Clocked state stamps) (hreadings : after.2.readings = state.2.readings)
    (hledger : ledger after = ledger state ++ [last]) (hlow : state.2.read ≤ n)
    (hhigh : n < after.2.read) (hreceipt : last.createdAt = state.2.readings n)
    (hstarts : ∀ race, after.1.race = some race →
      (∃ earlier, state.1.race = some earlier ∧ race.startedAt = earlier.startedAt) ∨
      ∃ m, m < n ∧ race.startedAt = state.2.readings m) :
    Clocked after (stamps ++ [n]) where
  receipts_eq := by
    rw [hledger, hreadings, List.map_append, List.map_append, h.receipts_eq]
    simp [hreceipt]
  ascending := by
    refine List.pairwise_append.mpr ⟨h.ascending, List.pairwise_singleton _ _, ?_⟩
    intro earlier hearlier other hother
    rw [List.mem_singleton.mp hother]
    exact Nat.lt_of_lt_of_le (h.lt_read earlier hearlier) hlow
  lt_read := by
    intro other hother
    rcases List.mem_append.mp hother with hearlier | hnew
    · have hread := h.lt_read other hearlier
      omega
    · rwa [List.mem_singleton.mp hnew]
  started := by
    intro race hrace
    rw [hreadings]
    rcases hstarts race hrace with ⟨earlier, hopen, hsame⟩ | ⟨m, hlt, hstarted⟩
    · obtain ⟨start, before, hbefore, hlt, hstarted⟩ := h.started earlier hopen
      have hread := h.lt_read before (List.mem_of_getLast? hbefore)
      exact ⟨start, n, List.getLast?_concat, by omega, by rw [hsame, hstarted]⟩
    · exact ⟨m, n, List.getLast?_concat, hlt, hstarted⟩

theorem Clocked.perform {state : Session × World σ} {stamps : List Nat} (h : Clocked state stamps)
    (hcoherent : state.1.Coherent) (operation : Operation) :
    ∃ stamps', Clocked (World.perform operation state) stamps' := by
  obtain ⟨calls, events, taken, hmove, hextends⟩ :=
    World.exists_move operation state.1 state.2
  obtain ⟨filed, hledger, hfiled⟩ := hmove.ledger_append hextends hcoherent
  obtain ⟨count, hreads⟩ := World.exists_reads_run (operation.script state.1) state.2
  change state.2.Reads (World.perform operation state).2 count at hreads
  change ledger (World.perform operation state) = ledger state ++ filed at hledger
  cases haccepted : operation.accepted? with
  | none =>
      rw [haccepted] at hfiled
      rw [List.map_eq_nil_iff.mp hfiled, List.append_nil] at hledger
      exact ⟨stamps, h.keep hreads hledger (hmove.startedAt_eq haccepted)⟩
  | some sample =>
      obtain ⟨rfl, haccepts⟩ := Operation.eq_add_of_accepted? haccepted
      obtain ⟨n, last, hlow, hhigh, hlast, hreceipt, hstarts⟩ := receipt_add haccepts state
      obtain ⟨recorded, rfl⟩ : ∃ recorded, filed = [recorded] := by
        rw [haccepted] at hfiled
        exact List.length_eq_one_iff.mp (by simpa using congrArg List.length hfiled)
      -- the one sample that was filed is the last that waits
      have hend : (ledger (World.perform (.add sample) state)).getLast? = some last := by
        simp [ledger, List.getLast?_append, hlast]
      rw [hledger, List.getLast?_concat, Option.some.injEq] at hend
      rw [hend] at hledger
      exact ⟨_, h.receive hreads.readings_eq hledger hlow hhigh hreceipt hstarts⟩

/-! ## Runs -/

theorem UpToDate.performAll {state : Session × World σ} (h : UpToDate state)
    (operations : List Operation) : UpToDate (World.performAll operations state) := by
  induction operations generalizing state with
  | nil => exact h
  | cons operation operations ih =>
      obtain ⟨_, _, _, hmove, hextends⟩ := World.exists_move operation state.1 state.2
      exact ih (h.move hmove hextends)

theorem Clocked.performAll {state : Session × World σ} {stamps : List Nat}
    (h : Clocked state stamps) (hstate : UpToDate state) (operations : List Operation) :
    ∃ stamps', Clocked (World.performAll operations state) stamps' := by
  induction operations generalizing state stamps with
  | nil => exact ⟨stamps, h⟩
  | cons operation operations ih =>
      obtain ⟨stamps', hnext⟩ := h.perform hstate.coherent operation
      exact ih hnext (hstate.performAll [operation])

end Readings

end RaceIngest
