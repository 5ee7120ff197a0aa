import RaceIngest.Race.Basic

/-!
# Identity and state of a race

A race has an identity, fixed by the sample that started it: its identifiers, its start, its car and
its track. All else is its state, which changes as the race goes on. Every operation on a race
keeps the identity (`Race.SameRace`); an update of a stored race keeps the identity that is stored and
takes over the whole state of the other race (`Race.SameState`), and the two together make up a race
(`Race.eq_mergeMutable`).
-/

namespace RaceIngest.Race

/-- Two states of one race: they agree on everything that is fixed when a race starts. -/
structure SameRace (race other : Race) : Prop where
  id_eq : race.id = other.id
  sessionId_eq : race.sessionId = other.sessionId
  startedAt_eq : race.startedAt = other.startedAt
  car_eq : race.car = other.car
  carClass_eq : race.carClass = other.carClass
  carPerformanceIndex_eq : race.carPerformanceIndex = other.carPerformanceIndex
  track_eq : race.track = other.track

theorem SameRace.refl (race : Race) : race.SameRace race := ⟨rfl, rfl, rfl, rfl, rfl, rfl, rfl⟩

theorem SameRace.trans {first second third : Race} (h : first.SameRace second)
    (h' : second.SameRace third) : first.SameRace third where
  id_eq := h.id_eq.trans h'.id_eq
  sessionId_eq := h.sessionId_eq.trans h'.sessionId_eq
  startedAt_eq := h.startedAt_eq.trans h'.startedAt_eq
  car_eq := h.car_eq.trans h'.car_eq
  carClass_eq := h.carClass_eq.trans h'.carClass_eq
  carPerformanceIndex_eq := h.carPerformanceIndex_eq.trans h'.carPerformanceIndex_eq
  track_eq := h.track_eq.trans h'.track_eq

theorem sameRace_update (race : Race) (sample : Sample) : (race.update sample).SameRace race :=
  ⟨rfl, rfl, rfl, rfl, rfl, rfl, rfl⟩

theorem sameRace_setPaused (race : Race) (paused : Bool) :
    ({ race with paused } : Race).SameRace race :=
  ⟨rfl, rfl, rfl, rfl, rfl, rfl, rfl⟩

/-- Two races agree on everything that an update may change. -/
structure SameState (race other : Race) : Prop where
  paused_eq : race.paused = other.paused
  inProgress_eq : race.inProgress = other.inProgress
  finishedAt_eq : race.finishedAt = other.finishedAt
  bestLap_eq : race.bestLap = other.bestLap
  raceTime_eq : race.raceTime = other.raceTime
  position_eq : race.position = other.position
  distanceTraveled_eq : race.distanceTraveled = other.distanceTraveled

theorem SameState.refl (race : Race) : race.SameState race := ⟨rfl, rfl, rfl, rfl, rfl, rfl, rfl⟩

theorem sameRace_mergeMutable (stored race : Race) : (stored.mergeMutable race).SameRace stored :=
  ⟨rfl, rfl, rfl, rfl, rfl, rfl, rfl⟩

theorem sameState_mergeMutable (stored race : Race) : (stored.mergeMutable race).SameState race :=
  ⟨rfl, rfl, rfl, rfl, rfl, rfl, rfl⟩

/-- Identity and state make up a race. -/
theorem eq_mergeMutable {race first last : Race} (hfirst : race.SameRace first)
    (hlast : race.SameState last) : race = first.mergeMutable last := by
  obtain ⟨hid, hsession, hstarted, hcar, hclass, hindex, htrack⟩ := hfirst
  obtain ⟨hpaused, hprogress, hfinished, hlap, htime, hposition, hdistance⟩ := hlast
  unfold mergeMutable
  rw [← hid, ← hsession, ← hstarted, ← hcar, ← hclass, ← hindex, ← htrack, ← hpaused, ← hprogress,
    ← hfinished, ← hlap, ← htime, ← hposition, ← hdistance]

/-- An update of a stored race makes it the other one, when both are states of one race. -/
theorem mergeMutable_eq {stored race : Race} (h : race.SameRace stored) :
    stored.mergeMutable race = race :=
  (eq_mergeMutable h (.refl race)).symm

end RaceIngest.Race
