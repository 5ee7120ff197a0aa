import Mathlib.Data.List.Chain
import RaceIngest.Proofs.Session.Chapters

/-!
# What the store is told of a race

The calls of a session to its store come in *dossiers*, one for every race, in the order in which
the races begin. A dossier opens with the race as it starts, goes on with flushes and with changes
of the pause flag, and ends with the question for the last stored sample, directly followed by the
race as it finished. A race that begins when another one ends is put into the store together with
the finish of the other, so its dossier is *joined* to the one before and has no opening call.

Calls are made by five functions that call one another, and whether a call fails has no effect on
the calls after it. What carries the induction is `Casebook`: all dossiers but the last are
complete, and the open race is the last race that was written, up to its clock. The clock runs ahead
of what was written exactly while samples wait in the buffer, and nothing waits for a race that is
paused (`Session.Quiet`); so a change of the pause flag changes nothing else.

## Main results

* `Session.Move.quiet`: nothing waits for a paused race.
* `Documented.flushed`, `Documented.turns`, `Documented.ends`, `Documented.begins`: the ways to go
  on with the dossiers.
* `Documented.move`: every move of a session goes on with them.
* `calls_in_dossiers`: the calls of every run, whichever of them fail.
-/

namespace RaceIngest

open Calendar

/-! ## Paused races -/

namespace Session

/-- Nothing waits for a race that is paused. -/
def Quiet (session : Session) : Prop :=
  ∀ race, session.race = some race → race.paused = true → session.buffer = []

theorem quiet_fresh (id : Uuid) (capacity : Nat) : (fresh id capacity).Quiet := by
  simp [Quiet, fresh]

/-- The race that an accepted sample belongs to is not paused. -/
theorem Entry.paused_eq {id : Uuid} {sample : Sample} {session ready : Session}
    {calls : List Call} {events : List Event} {taken : Nat}
    (h : session.Entry id sample calls events taken ready)
    (haccepts : Session.accepts sample = true) {race : Race} (hrace : ready.race = some race) :
    race.paused = false := by
  cases h with
  | opens now | crosses _ _ _ _ now =>
      rw [← Option.some.inj hrace]
      exact (fits_start haccepts session.id id now).2.1
  | resumes =>
      rw [← Option.some.inj hrace]
  | continues _ hcurrent _ hrunning =>
      rw [hcurrent, Option.some.injEq] at hrace
      rw [← hrace]
      exact hrunning

theorem Move.quiet {id : Uuid} {session after : Session} {operation : Operation}
    {calls : List Call} {events : List Event} {taken : Nat}
    (h : session.Move id operation calls events taken after) (hquiet : session.Quiet) :
    after.Quiet := by
  cases h with
  | staysOff | waitsOnGrid | closesIdle => exact hquiet
  | pauses | flushes | closes => exact fun _ _ _ => rfl
  | accepts sample haccepts _ _ _ ready race now hentry hrace =>
      intro current hcurrent hpaused
      rw [← Option.some.inj hcurrent] at hpaused
      exact absurd hpaused (by simp [hentry.paused_eq haccepts hrace])

end Session

/-! ## Writes -/

/-- A write to the store about an open race: samples, together with the race, or the race alone
when its pause flag changed. -/
inductive Write where
  | flush (race : Race) (samples : List Recorded)
  | turn (race : Race)

def Write.calls : Write → List Call
  | .flush race samples => [.upsert [race], .insert race samples]
  | .turn race => [.upsert [race]]

/-- The writes about a race, one after the other, from the race as it started to the race as it was
written last. A flush takes over the aggregates of its last sample, and all its samples belong to
the race. -/
inductive Written (start : Race) : List Write → Race → Prop where
  | nothing : Written start [] start
  | flushes {writes : List Write} {race : Race} (h : Written start writes race)
      (samples : List Recorded) (last : Recorded) (hlast : samples.getLast? = some last)
      (htags : ∀ recorded ∈ samples, recorded.race = race.id) :
      Written start (writes ++ [.flush (race.update last.sample) samples])
        (race.update last.sample)
  | turns {writes : List Write} {race : Race} (h : Written start writes race) :
      Written start (writes ++ [.turn { race with paused := !race.paused }])
        { race with paused := !race.paused }

/-- A race while it is open, given how it started. -/
structure Race.OpenAs (race start : Race) : Prop extends race.SameRace start where
  inProgress : race.inProgress = true
  finishedAt : race.finishedAt = none

/-- A write is about a race while it is open. A flush has samples of that race only, and the last of
them has the aggregates of the race. -/
def Write.Fits (start : Race) : Write → Prop
  | .flush race samples => race.OpenAs start ∧ (∀ recorded ∈ samples, recorded.race = start.id) ∧
      ∃ last, samples.getLast? = some last ∧ race.bestLap = last.sample.bestLap ∧
        race.raceTime = last.sample.currentRaceTime ∧ race.position = last.sample.racePosition ∧
        race.distanceTraveled = last.sample.distanceTraveled
  | .turn race => race.OpenAs start

theorem Written.fits {start latest : Race} {writes : List Write}
    (h : Written start writes latest) (hfits : EventKind.started.Fits start) :
    latest.OpenAs start ∧ ∀ write ∈ writes, write.Fits start := by
  have hconcat : ∀ {writes : List Write} {write : Write}, (∀ old ∈ writes, old.Fits start) →
      write.Fits start → ∀ other ∈ writes ++ [write], other.Fits start := by
    intro writes write hold hnew other hother
    rcases List.mem_append.mp hother with hmem | hmem
    · exact hold other hmem
    · rw [List.mem_singleton.mp hmem]
      exact hnew
  induction h with
  | nothing => exact ⟨⟨.refl start, hfits.1, hfits.2.2.1⟩, by simp⟩
  | @flushes _ race _ samples last hlast htags ih =>
      have hopen : (race.update last.sample).OpenAs start :=
        ⟨(race.sameRace_update _).trans ih.1.toSameRace, ih.1.inProgress, ih.1.finishedAt⟩
      refine ⟨hopen, hconcat ih.2 ⟨hopen, ?_, last, hlast, rfl, rfl, rfl, rfl⟩⟩
      exact fun recorded hrecorded => (htags recorded hrecorded).trans ih.1.id_eq
  | @turns _ race _ ih =>
      have hopen : ({ race with paused := !race.paused } : Race).OpenAs start :=
        ⟨(race.sameRace_setPaused _).trans ih.1.toSameRace, ih.1.inProgress, ih.1.finishedAt⟩
      exact ⟨hopen, hconcat ih.2 hopen⟩

/-! ## Dossiers -/

/-- The end of a race: what the store answered when it was asked for the last sample, the race as it
finished, and the race that started then, if the end is a race boundary. -/
structure Finish where
  result : Except StorageError Recorded
  race : Race
  next : Option Race

/-- What the store is told of one race. -/
structure Dossier where
  start : Race
  /-- The race was put into the store with the finish of the race before it. -/
  joined : Bool
  writes : List Write
  finish : Option Finish

namespace Dossier

/-- The race that started when the race ended. -/
def next? (dossier : Dossier) : Option Race := dossier.finish.bind Finish.next

/-- The calls of a dossier. -/
def calls (dossier : Dossier) : List Call :=
  (bif dossier.joined then [] else [.upsert [dossier.start]]) ++
    dossier.writes.flatMap Write.calls ++
      dossier.finish.toList.flatMap fun finish =>
        [.last dossier.start.id finish.result, .upsert (finish.race :: finish.next.toList)]

/-- What the calls of a dossier, and the call it is joined to, say about its own race. -/
def story (dossier : Dossier) : List Call :=
  .upsert [dossier.start] :: dossier.writes.flatMap Write.calls ++
    dossier.finish.toList.flatMap fun finish =>
      [.last dossier.start.id finish.result, .upsert [finish.race]]

/-- One dossier comes directly before another: the other is joined to it exactly when its race
started when the first one ended. -/
def Precedes (dossier other : Dossier) : Prop :=
  dossier.next? = if other.joined then some other.start else none

/-- A dossier tells of one race: it starts afresh, it is open as long as it is written, and it
finishes from what was written last. -/
structure WellFormed (dossier : Dossier) : Prop where
  starts : EventKind.started.Fits dossier.start
  written : ∃ latest, Written dossier.start dossier.writes latest ∧
    ∀ finish ∈ dossier.finish, latest.Ends finish.result finish.race
  writes : ∀ write ∈ dossier.writes, write.Fits dossier.start
  finishes : ∀ finish ∈ dossier.finish, finish.race.SameRace dossier.start ∧
    finish.race.inProgress = false ∧ finish.race.finishedAt.isSome = true

theorem wellFormed_of_written {dossier : Dossier} {latest : Race}
    (hstarts : EventKind.started.Fits dossier.start)
    (hwritten : Written dossier.start dossier.writes latest)
    (hends : ∀ finish ∈ dossier.finish, latest.Ends finish.result finish.race) :
    dossier.WellFormed where
  starts := hstarts
  written := ⟨latest, hwritten, hends⟩
  writes := (hwritten.fits hstarts).2
  finishes := fun finish hfinish =>
    ⟨(hends finish hfinish).sameRace.trans (hwritten.fits hstarts).1.toSameRace,
      (hends finish hfinish).fits⟩

/-- The dossier of a race that starts. -/
def opening (race : Race) (joined : Bool) : Dossier := ⟨race, joined, [], none⟩

/-- The dossier with one more write. -/
def wrote (dossier : Dossier) (write : Write) : Dossier :=
  { dossier with writes := dossier.writes ++ [write] }

/-- The dossier with its finish. -/
def ended (dossier : Dossier) (finish : Finish) : Dossier :=
  { dossier with finish := some finish }

theorem calls_wrote {dossier : Dossier} (hopen : dossier.finish = none) (write : Write) :
    (dossier.wrote write).calls = dossier.calls ++ write.calls := by
  simp [calls, wrote, hopen]

theorem story_wrote {dossier : Dossier} (hopen : dossier.finish = none) (write : Write) :
    (dossier.wrote write).story = dossier.story ++ write.calls := by
  simp [story, wrote, hopen]

theorem calls_ended {dossier : Dossier} (hopen : dossier.finish = none) (finish : Finish) :
    (dossier.ended finish).calls = dossier.calls ++
      [.last dossier.start.id finish.result, .upsert (finish.race :: finish.next.toList)] := by
  simp [calls, ended, hopen]

theorem story_ended {dossier : Dossier} (hopen : dossier.finish = none) (finish : Finish) :
    (dossier.ended finish).story = dossier.story ++
      [.last dossier.start.id finish.result, .upsert [finish.race]] := by
  simp [story, ended, hopen]

end Dossier

/-! ## Parts of calls -/

namespace Call

/-- What a call says about single races. -/
def parts : Call → List Call
  | .upsert races => races.map fun race => .upsert [race]
  | .insert race samples => [.insert race samples]
  | .last race result => [.last race result]

/-- Whether a call mentions a race. -/
def isAbout (race : Uuid) : Call → Bool
  | .upsert races => races.any (·.id == race)
  | .insert filed samples => filed.id == race || samples.any (·.race == race)
  | .last asked _ => asked == race

end Call

theorem Write.Fits.isAbout_eq {start : Race} {write : Write} (h : write.Fits start) {call : Call}
    (hcall : call ∈ write.calls) (race : Uuid) : call.isAbout race = (start.id == race) := by
  cases write with
  | flush written samples =>
      obtain ⟨hopen, htags, -⟩ := h
      simp only [Write.calls, List.mem_cons, List.not_mem_nil, or_false] at hcall
      rcases hcall with rfl | rfl
      · simp [Call.isAbout, hopen.id_eq]
      · rw [Call.isAbout, hopen.id_eq, Bool.or_eq_left_iff_imp, List.any_eq_true]
        rintro ⟨recorded, hrecorded, hrace⟩
        rw [← htags recorded hrecorded]
        exact hrace
  | turn written =>
      rw [List.mem_singleton.mp hcall]
      simp [Call.isAbout, h.id_eq]

/-- The calls of a dossier are about its own race, and mention no other. -/
theorem Dossier.WellFormed.isAbout_eq {dossier : Dossier} (h : dossier.WellFormed) {call : Call}
    (hcall : call ∈ dossier.story) (race : Uuid) :
    call.isAbout race = (dossier.start.id == race) := by
  simp only [Dossier.story, List.mem_append, List.mem_cons, List.mem_flatMap, List.not_mem_nil,
    or_false, Option.mem_toList] at hcall
  rcases hcall with (rfl | ⟨write, hwrite, hcall⟩) | ⟨finish, hfinish, rfl | rfl⟩
  · simp [Call.isAbout]
  · exact (h.writes write hwrite).isAbout_eq hcall race
  · rfl
  · simp [Call.isAbout, (h.finishes finish hfinish).1.id_eq]

/-- When the races of some dossiers are distinct, what is said about one of them is its dossier. -/
theorem filter_story {dossiers : List Dossier} (hwell : ∀ dossier ∈ dossiers, dossier.WellFormed)
    (hnodup : (dossiers.map fun dossier => dossier.start.id).Nodup) {dossier : Dossier}
    (hdossier : dossier ∈ dossiers) :
    (dossiers.flatMap Dossier.story).filter (Call.isAbout dossier.start.id) = dossier.story := by
  obtain ⟨earlier, later, rfl⟩ := List.append_of_mem hdossier
  rw [List.map_append, List.map_cons, List.nodup_middle, List.nodup_cons, ← List.map_append]
    at hnodup
  have hown : dossier.story.filter (Call.isAbout dossier.start.id) = dossier.story := by
    refine List.filter_eq_self.mpr fun call hcall => ?_
    rw [(hwell dossier hdossier).isAbout_eq hcall, beq_self_eq_true]
  have hothers : ∀ other ∈ earlier ++ later,
      other.story.filter (Call.isAbout dossier.start.id) = [] := by
    intro other hother
    have hmem : other ∈ earlier ++ dossier :: later := by
      rw [List.mem_append] at hother
      simpa using hother.elim .inl fun h => .inr (.inr h)
    have hne : other.start.id ≠ dossier.start.id := fun heq =>
      hnodup.1 (heq ▸ List.mem_map_of_mem hother)
    refine List.filter_eq_nil_iff.mpr fun call hcall => ?_
    rw [(hwell other hmem).isAbout_eq hcall]
    simpa using hne
  rw [List.forall_mem_append] at hothers
  rw [List.filter_flatMap, List.flatMap_append, List.flatMap_cons, hown,
    List.flatMap_eq_nil_iff.mpr hothers.1, List.flatMap_eq_nil_iff.mpr hothers.2]
  simp

/-! ## The casebook of a session -/

/-- Some calls are those of some dossiers, whose races carry the first identifiers of the supply, in
their order. All dossiers but the last are complete. The last is, too, when no race is open; else
the open race is what was written last, and only its clock may differ, as long as samples wait.

While the session crosses a race boundary the next race is in the store already and has no dossier
yet; it is `pending` then. -/
structure Casebook (ids : Nat → Uuid) (issued : Nat) (calls : List Call)
    (pending race : Option Race) (buffer : List Recorded) (dossiers : List Dossier) : Prop where
  calls_eq : calls = dossiers.flatMap Dossier.calls
  parts_eq : calls.flatMap Call.parts =
    dossiers.flatMap Dossier.story ++ pending.toList.map fun next => .upsert [next]
  wellFormed : ∀ dossier ∈ dossiers, dossier.WellFormed
  ids_eq : (dossiers.map fun dossier => dossier.start.id) = (List.range issued).map ids
  isChain : dossiers.IsChain Dossier.Precedes
  head_eq : ∀ dossier ∈ dossiers.head?, dossier.joined = false
  next_eq : dossiers.getLast?.bind Dossier.next? = pending
  dropLast : ∀ dossier ∈ dossiers.dropLast, dossier.finish.isSome = true
  idle : race = none → ∀ dossier ∈ dossiers, dossier.finish.isSome = true
  running : ∀ current, race = some current → ∃ last, dossiers.getLast? = some last ∧
    last.finish = none ∧ ∃ latest clock, Written last.start last.writes latest ∧
      current = { latest with raceTime := clock } ∧ (buffer = [] → current = latest)

/-- The last dossier goes on by some calls. -/
theorem Casebook.concat {ids : Nat → Uuid} {issued : Nat} {calls : List Call}
    {race race' pending : Option Race} {buffer buffer' : List Recorded} {earlier : List Dossier}
    {last last' : Dossier} (h : Casebook ids issued calls none race buffer (earlier ++ [last]))
    {added told : List Call} (hcalls : last'.calls = last.calls ++ added)
    (hstory : last'.story = last.story ++ told)
    (hparts : added.flatMap Call.parts = told ++ pending.toList.map fun next => .upsert [next])
    (hstart : last'.start = last.start) (hjoined : last'.joined = last.joined)
    (hwell : last'.WellFormed) (hnext : last'.next? = pending)
    (hidle : race' = none → last'.finish.isSome = true)
    (hrunning : ∀ current, race' = some current → last'.finish = none ∧
      ∃ latest clock, Written last'.start last'.writes latest ∧
        current = { latest with raceTime := clock } ∧ (buffer' = [] → current = latest)) :
    Casebook ids issued (calls ++ added) pending race' buffer' (earlier ++ [last']) where
  calls_eq := by
    rw [h.calls_eq]
    simp [hcalls]
  parts_eq := by
    rw [List.flatMap_append, h.parts_eq, hparts]
    simp [hstory]
  wellFormed := by
    intro dossier hdossier
    rcases List.mem_append.mp hdossier with hold | hnew
    · exact h.wellFormed dossier (List.mem_append_left _ hold)
    · rw [List.mem_singleton.mp hnew]
      exact hwell
  ids_eq := by
    rw [← h.ids_eq]
    simp [hstart]
  isChain := by
    have hchain := List.isChain_append.mp h.isChain
    refine List.isChain_append.mpr ⟨hchain.1, List.isChain_singleton _, ?_⟩
    intro before hbefore after hafter
    have hprecedes := hchain.2.2 before hbefore last (by simp)
    rw [List.head?_singleton, Option.mem_some_iff] at hafter
    rw [← hafter, Dossier.Precedes, hjoined, hstart]
    exact hprecedes
  head_eq := by
    have hhead := h.head_eq
    cases earlier with
    | nil => simpa [hjoined] using hhead
    | cons first rest => simpa using hhead
  next_eq := by simp [hnext]
  dropLast := by simpa using h.dropLast
  idle := by
    intro hrace dossier hdossier
    rcases List.mem_append.mp hdossier with hold | hnew
    · exact h.dropLast dossier (by simpa using hold)
    · rw [List.mem_singleton.mp hnew]
      exact hidle hrace
  running := by simpa using hrunning

/-- A race starts, in a call of its own or with the finish of the race before. -/
theorem Casebook.opens {ids : Nat → Uuid} {issued : Nat} {calls : List Call}
    {pending : Option Race} {buffer : List Recorded} {dossiers : List Dossier}
    (h : Casebook ids issued calls pending none buffer dossiers) {race : Race} (joined : Bool)
    (hpending : pending = if joined then some race else none) (hid : race.id = ids issued)
    (hfits : EventKind.started.Fits race) :
    Casebook ids (issued + 1) (calls ++ bif joined then [] else [.upsert [race]]) none (some race)
      buffer (dossiers ++ [.opening race joined]) where
  calls_eq := by
    rw [h.calls_eq]
    simp [Dossier.calls, Dossier.opening]
  parts_eq := by
    rw [List.flatMap_append, h.parts_eq, hpending]
    cases joined <;> simp [Dossier.story, Dossier.opening, Call.parts]
  wellFormed := by
    intro dossier hdossier
    rcases List.mem_append.mp hdossier with hold | hnew
    · exact h.wellFormed dossier hold
    · rw [List.mem_singleton.mp hnew]
      exact Dossier.wellFormed_of_written hfits .nothing (by simp [Dossier.opening])
  ids_eq := by
    rw [List.map_append, h.ids_eq, List.range_succ, List.map_append]
    simp [Dossier.opening, hid]
  isChain := by
    refine List.isChain_append.mpr ⟨h.isChain, List.isChain_singleton _, ?_⟩
    intro before hbefore after hafter
    rw [List.head?_singleton, Option.mem_some_iff] at hafter
    have hnext := h.next_eq
    rw [Option.mem_def.mp hbefore, Option.bind_some, hpending] at hnext
    rw [← hafter]
    exact hnext
  head_eq := by
    cases dossiers with
    | nil =>
        have hnone := h.next_eq
        rw [hpending] at hnone
        cases joined
        · simp [Dossier.opening]
        · simp at hnone
    | cons first rest => simpa using h.head_eq
  next_eq := by simp [Dossier.opening, Dossier.next?]
  dropLast := by
    rw [List.dropLast_concat]
    exact h.idle rfl
  idle := nofun
  running := by
    intro current hcurrent
    rw [Option.some.injEq] at hcurrent
    subst hcurrent
    exact ⟨_, List.getLast?_concat, rfl, race, _, .nothing, rfl, fun _ => rfl⟩

/-- The calls of a session are those of some dossiers, and they are about the race that is open. -/
def Documented (ids : Nat → Uuid) (issued : Nat) (calls : List Call) (pending race : Option Race)
    (buffer : List Recorded) : Prop :=
  ∃ dossiers, Casebook ids issued calls pending race buffer dossiers

namespace Documented

variable {ids : Nat → Uuid} {issued : Nat} {calls : List Call} {race : Race}
  {buffer : List Recorded}

theorem nothing (ids : Nat → Uuid) : Documented ids 0 [] none none [] :=
  ⟨[], by constructor <;> simp⟩

/-- The dossier of an open race is the last, and incomplete. -/
theorem exists_last (h : Documented ids issued calls none (some race) buffer) :
    ∃ earlier last latest clock,
      Casebook ids issued calls none (some race) buffer (earlier ++ [last]) ∧
      last.finish = none ∧ EventKind.started.Fits last.start ∧
      Written last.start last.writes latest ∧ latest.id = last.start.id ∧
      race = { latest with raceTime := clock } ∧ (buffer = [] → race = latest) := by
  obtain ⟨dossiers, hbook⟩ := h
  obtain ⟨last, hlast, hopen, latest, clock, hwritten, hrace, hsettled⟩ := hbook.running race rfl
  obtain ⟨earlier, rfl⟩ := List.getLast?_eq_some_iff.mp hlast
  have hstarts := (hbook.wellFormed last (by simp)).starts
  exact ⟨earlier, last, latest, clock, hbook, hopen, hstarts, hwritten,
    (hwritten.fits hstarts).1.id_eq, hrace, hsettled⟩

/-- One more write goes into the dossier of the open race. -/
theorem writes {race' : Race} (write : Write)
    (h : Documented ids issued calls none (some race) buffer)
    (hwritten : ∀ (start latest : Race) (clock : Single) (writes : List Write),
      Written start writes latest → race = { latest with raceTime := clock } →
      (buffer = [] → race = latest) → Written start (writes ++ [write]) race') :
    Documented ids issued (calls ++ write.calls) none (some race') [] := by
  obtain ⟨earlier, last, latest, clock, hbook, hopen, hstarts, hlatest, -, hrace, hsettled⟩ :=
    h.exists_last
  have hnow := hwritten last.start latest clock last.writes hlatest hrace hsettled
  refine ⟨earlier ++ [last.wrote write], hbook.concat (Dossier.calls_wrote hopen write)
    (Dossier.story_wrote hopen write) ?_ rfl rfl ?_ ?_ nofun ?_⟩
  · cases write <;> rfl
  · exact Dossier.wellFormed_of_written hstarts hnow (by simp [Dossier.wrote, hopen])
  · simp [Dossier.next?, Dossier.wrote, hopen]
  · intro current hcurrent
    rw [Option.some.injEq] at hcurrent
    rw [← hcurrent]
    exact ⟨hopen, race', _, hnow, rfl, fun _ => rfl⟩

/-- A flush writes the samples that wait. -/
theorem flushed {session : Session}
    (h : Documented ids issued calls none session.race session.buffer)
    (hcoherent : session.Coherent) :
    Documented ids issued (calls ++ session.flushCalls) none session.flushed.race [] := by
  cases hrace : session.race with
  | none =>
      have hcalls : session.flushCalls = [] := by
        unfold Session.flushCalls
        rw [hrace]
        cases session.buffer.getLast? <;> rfl
      rw [hrace, hcoherent.buffer_eq_nil hrace] at h
      rw [hcalls, List.append_nil, Session.flushed, hrace]
      exact h
  | some race =>
      rw [hrace] at h
      have hflushed : session.flushed.race = some (session.refreshed race) := by
        simp [Session.flushed, hrace]
      rw [hflushed]
      unfold Session.flushCalls Session.refreshed
      rw [hrace]
      cases hlast : session.buffer.getLast? with
      | none =>
          rw [List.getLast?_eq_none_iff.mp hlast] at h
          rw [List.append_nil]
          exact h
      | some last =>
          refine h.writes (.flush (race.update last.sample) session.buffer) ?_
          rintro start latest clock writes hwritten rfl -
          -- a flush sets the clock anew, so it does not matter that the clock ran ahead
          exact hwritten.flushes session.buffer last hlast fun recorded hrecorded =>
            hcoherent.tag_eq _ hrace recorded hrecorded

/-- A pause or a resume of a race for which nothing waits changes the pause flag only. -/
theorem turns (h : Documented ids issued calls none (some race) []) {paused : Bool}
    (hturned : paused = !race.paused) :
    Documented ids issued (calls ++ [.upsert [{ race with paused }]]) none
      (some { race with paused }) [] := by
  refine h.writes (.turn { race with paused }) ?_
  intro start latest clock writes hwritten _ hsettled
  rw [hsettled rfl] at hturned ⊢
  rw [hturned]
  exact hwritten.turns

/-- The finish of a race for which nothing waits completes its dossier. The next race may start with
it. -/
theorem ends (h : Documented ids issued calls none (some race) [])
    {result : Except StorageError Recorded} {ended : Race} (hends : race.Ends result ended)
    (next : Option Race) :
    Documented ids issued (calls ++ [.last race.id result, .upsert (ended :: next.toList)]) next
      none [] := by
  obtain ⟨earlier, last, latest, clock, hbook, hopen, hstarts, hlatest, hid, -, hsettled⟩ :=
    h.exists_last
  rw [← hsettled rfl] at hlatest hid
  have hcalls := Dossier.calls_ended hopen ⟨result, ended, next⟩
  have hstory := Dossier.story_ended hopen ⟨result, ended, next⟩
  rw [← hid] at hcalls hstory
  refine ⟨earlier ++ [last.ended ⟨result, ended, next⟩], hbook.concat hcalls hstory ?_ rfl rfl ?_
    rfl (fun _ => rfl) (by simp)⟩
  · simp [Call.parts]
  · refine Dossier.wellFormed_of_written hstarts hlatest fun finish hfinish => ?_
    rw [← Option.some.inj (Option.mem_def.mp hfinish)]
    exact hends

/-- A race starts in a call of its own. -/
theorem begins (h : Documented ids issued calls none none buffer) (hid : race.id = ids issued)
    (hfits : EventKind.started.Fits race) :
    Documented ids (issued + 1) (calls ++ [.upsert [race]]) none (some race) buffer := by
  obtain ⟨dossiers, hbook⟩ := h
  exact ⟨_, hbook.opens false rfl hid hfits⟩

/-- A race starts with the finish of the race before. -/
theorem joins (h : Documented ids issued calls (some race) none buffer)
    (hid : race.id = ids issued) (hfits : EventKind.started.Fits race) :
    Documented ids (issued + 1) calls none (some race) buffer := by
  obtain ⟨dossiers, hbook⟩ := h
  have hopened := hbook.opens true rfl hid hfits
  rw [cond_true, List.append_nil] at hopened
  exact ⟨_, hopened⟩

/-- While samples wait the clock of the race runs ahead of what was written. -/
theorem records (h : Documented ids issued calls none (some race) buffer) (clock : Single)
    {buffer' : List Recorded} (hbuffer : buffer' ≠ []) :
    Documented ids issued calls none (some { race with raceTime := clock }) buffer' := by
  obtain ⟨dossiers, hbook⟩ := h
  refine ⟨dossiers, { hbook with idle := nofun, running := ?_ }⟩
  intro current hcurrent
  obtain ⟨last, hlast, hopen, latest, before, hwritten, hrace, -⟩ := hbook.running race rfl
  refine ⟨last, hlast, hopen, latest, clock, hwritten, ?_, fun hnil => absurd hnil hbuffer⟩
  rw [← Option.some.inj hcurrent, hrace]

/-! ## Every move goes on with the dossiers -/

theorem entry {session ready : Session} {sample : Sample} {calls' : List Call}
    {events : List Event} {taken : Nat}
    (h : Documented ids issued calls none session.race session.buffer)
    (hcoherent : session.Coherent) (hquiet : session.Quiet)
    (haccepts : Session.accepts sample = true)
    (hentry : session.Entry (ids issued) sample calls' events taken ready) :
    Documented ids (issued + taken) (calls ++ calls') none ready.race ready.buffer := by
  cases hentry with
  | opens now hrace =>
      rw [hrace] at h
      exact h.begins rfl (fits_start haccepts _ _ now)
  | crosses race current ended result now hrace hnew hcurrent hends =>
      have hflushed := h.flushed hcoherent
      rw [hcurrent] at hflushed
      have hfinished := hflushed.ends hends
        (some (Race.start sample session.id (ids issued) now))
      rw [List.append_assoc] at hfinished
      exact hfinished.joins rfl (fits_start haccepts _ _ now)
  | resumes race hrace hold hpaused =>
      have hnothing := hquiet race hrace hpaused
      rw [hrace, hnothing] at h
      have hturned : false = !race.paused := by
        rw [hpaused]
        rfl
      have hresumed := h.turns hturned
      rw [← hnothing] at hresumed
      exact hresumed
  | continues =>
      rw [List.append_nil]
      exact h

/-- Every move of a session goes on with the dossiers. -/
theorem move {session after : Session} {operation : Operation} {calls' : List Call}
    {events : List Event} {taken : Nat}
    (h : Documented ids issued calls none session.race session.buffer)
    (hcoherent : session.Coherent) (hquiet : session.Quiet)
    (hmove : session.Move (ids issued) operation calls' events taken after) :
    Documented ids (issued + taken) (calls ++ calls') none after.race after.buffer := by
  cases hmove with
  | staysOff | waitsOnGrid | closesIdle => rwa [List.append_nil]
  | flushes => exact h.flushed hcoherent
  | pauses sample hoff race current hrace hrunning hcurrent =>
      have hflag : current.paused = false := by
        have heq : session.refreshed race = current := by
          simpa [Session.flushed, hrace] using hcurrent
        rw [← heq, (Race.continues_refreshed session race).paused_eq]
        exact hrunning
      have hflushed := h.flushed hcoherent
      rw [hcurrent] at hflushed
      have hturned : true = !current.paused := by
        rw [hflag]
        rfl
      have hpaused := hflushed.turns hturned
      rw [List.append_assoc] at hpaused
      exact hpaused
  | closes race ended result hcurrent hends =>
      have hflushed := h.flushed hcoherent
      rw [hcurrent] at hflushed
      have hfinished := hflushed.ends hends none
      rw [List.append_assoc] at hfinished
      exact hfinished
  | accepts sample haccepts calls' events taken ready race now hentry hrace =>
      have hready := h.entry hcoherent hquiet haccepts hentry
      rw [hrace] at hready
      exact hready.records sample.currentRaceTime (by simp [Session.recorded])

end Documented

/-! ## Runs -/

section Runs

variable {σ : Type} [Store σ]

theorem performAll_documented (operations : List Operation) (session : Session) (world : World σ)
    (hcoherent : session.Coherent) (hquiet : session.Quiet)
    (h : Documented world.ids world.issued world.calls none session.race session.buffer) :
    let final := World.performAll operations (session, world)
    Documented world.ids final.2.issued final.2.calls none final.1.race final.1.buffer := by
  induction operations generalizing session world with
  | nil => exact h
  | cons operation operations ih =>
      obtain ⟨calls, events, taken, hmove, hextends⟩ :=
        World.exists_move operation session world
      have hstep := h.move hcoherent hquiet hmove
      rw [← hextends.calls_eq, ← hextends.issued_eq, ← hextends.ids_eq] at hstep
      have hrest := ih _ (World.perform operation (session, world)).2 (hmove.coherent hcoherent)
        (hmove.quiet hquiet) hstep
      rw [hextends.ids_eq] at hrest
      exact hrest

/-- What the dossiers of a session say of it when it has come to some state. -/
structure Session.Keeps (ids : Nat → Uuid) (state : Session × World σ) (dossiers : List Dossier) :
    Prop where
  /-- The calls are those of the dossiers, one dossier after the other. -/
  calls_eq : state.2.calls = dossiers.flatMap Dossier.calls
  wellFormed : ∀ dossier ∈ dossiers, dossier.WellFormed
  /-- A dossier is joined to the one before exactly when its race started with the finish of the
  other; the first is not, and after the last there is no race that could be. -/
  isChain : dossiers.IsChain Dossier.Precedes
  head_eq : ∀ dossier ∈ dossiers.head?, dossier.joined = false
  next_eq : ∀ dossier ∈ dossiers.getLast?, dossier.next? = none
  /-- All dossiers but the last are complete, and the last is unless its race is open. -/
  dropLast : ∀ dossier ∈ dossiers.dropLast, dossier.finish.isSome = true
  idle : state.1.race = none → ∀ dossier ∈ dossiers, dossier.finish.isSome = true
  running : ∀ race, state.1.race = some race → ∃ last, dossiers.getLast? = some last ∧
    last.finish = none ∧ race.OpenAs last.start
  /-- The races carry the identifiers that were given out, in their order. -/
  ids_eq : (dossiers.map fun dossier => dossier.start.id) = (List.range state.2.issued).map ids
  /-- As long as these are distinct, all that is said about a race is its dossier. -/
  story_eq : (∀ i j, i < state.2.issued → j < state.2.issued → ids i = ids j → i = j) →
    ∀ dossier ∈ dossiers,
      (state.2.calls.flatMap Call.parts).filter (Call.isAbout dossier.start.id) = dossier.story

/-- **The calls of a session come in dossiers**, one for every race, whichever of them fail. -/
theorem calls_in_dossiers (store : σ) (outage : Outage) (readings : Nat → Timestamp)
    (ids : Nat → Uuid) (id : Uuid) (capacity : Nat) (operations : List Operation) :
    ∃ dossiers, Session.Keeps ids (World.performAll operations
      (Session.fresh id capacity, World.fresh store outage readings ids)) dossiers := by
  obtain ⟨dossiers, hbook⟩ := performAll_documented operations (Session.fresh id capacity)
    (World.fresh store outage readings ids) (Session.coherent_fresh id capacity)
    (Session.quiet_fresh id capacity) (.nothing ids)
  have hids := hbook.ids_eq
  refine ⟨dossiers,
    { calls_eq := hbook.calls_eq
      wellFormed := hbook.wellFormed
      isChain := hbook.isChain
      head_eq := hbook.head_eq
      next_eq := ?_
      dropLast := hbook.dropLast
      idle := hbook.idle
      running := ?_
      ids_eq := hids
      story_eq := ?_ }⟩
  · intro dossier hdossier
    have hnext := hbook.next_eq
    rwa [Option.mem_def.mp hdossier] at hnext
  · intro race hrace
    obtain ⟨last, hlast, hopen, latest, clock, hwritten, rfl, -⟩ := hbook.running race hrace
    have hmem : last ∈ dossiers := List.mem_of_getLast? hlast
    have hlatest := (hwritten.fits (hbook.wellFormed last hmem).starts).1
    exact ⟨last, hlast, hopen,
      (latest.continues_setClock clock).toSameRace.trans hlatest.toSameRace,
      hlatest.inProgress, hlatest.finishedAt⟩
  · intro hdistinct dossier hdossier
    have hnodup : (dossiers.map fun dossier => dossier.start.id).Nodup := by
      rw [hids]
      refine List.Nodup.map_on ?_ List.nodup_range
      intro i hi j hj heq
      exact hdistinct i j (List.mem_range.mp hi) (List.mem_range.mp hj) heq
    have hparts := hbook.parts_eq
    rw [Option.toList_none, List.map_nil, List.append_nil] at hparts
    rw [hparts]
    exact filter_story hbook.wellFormed hnodup hdossier

/-- A race that is paused, resumed and crossed into the next, which is closed, while the store takes
no race at all: thirteen calls, all of them in the dossiers of the two races. -/
theorem dossiers_of_race_boundary :
    let final := World.performAll
      [.add (.lapping .one), .add default, .add (.lapping .one), .add (.lapping .zero), .close]
      (Session.fresh (.ofNat 0) 350, World.fresh MemoryStore.empty
        (.ofMethods [.upsertRaces]) (fun _ => default) .ofNat)
    final.2.calls.length = 13 ∧ ∃ dossiers, Session.Keeps .ofNat final dossiers ∧
      dossiers.map (fun dossier => dossier.start.id) = [.ofNat 0, .ofNat 1] ∧
      ∀ dossier ∈ dossiers,
        (final.2.calls.flatMap Call.parts).filter (Call.isAbout dossier.start.id) =
          dossier.story := by
  intro final
  have hissued : final.2.issued = 2 := rfl
  have hdistinct : ∀ i j, i < final.2.issued → j < final.2.issued →
      Uuid.ofNat i = Uuid.ofNat j → i = j := by
    rw [hissued]
    exact Uuid.distinct_ofNat (by decide)
  obtain ⟨dossiers, hkeeps⟩ := calls_in_dossiers MemoryStore.empty
    (.ofMethods [.upsertRaces]) (fun _ => default) .ofNat (.ofNat 0) 350
    [.add (.lapping .one), .add default, .add (.lapping .one), .add (.lapping .zero), .close]
  exact ⟨rfl, dossiers, hkeeps, hkeeps.ids_eq, hkeeps.story_eq hdistinct⟩

end Runs

end RaceIngest
