import RaceIngest.Proofs.Store.Atomic

/-!
# Calls one after the other

A directory that is updated by one call at a time is never seen in the middle of an update. Each call
leaves it as an archive does whose lock nobody holds, so what is on file is the document of the held
races, or what was there at first. That decides what comes of opening the directory again, with no
regard to which calls failed and how.

## Main definitions

* `DirectoryStore.Settled`: a store that calls which all returned have left behind.

## Main statements

* `DirectoryStore.Settled.insert`, `DirectoryStore.Settled.upsert`: every call leaves it so,
* `DirectoryStore.Settled.openAt_eq`: opening the directory again.
-/

namespace RaceIngest

open Files

namespace DirectoryStore

variable {first store : DirectoryStore}

/-- A store as calls that all returned have left it, since it was the first one. -/
def Settled (first store : DirectoryStore) : Prop :=
  ∃ archive : Archive, Archive.Sound first archive ∧ archive.holder = none ∧ archive.store = store

theorem settled_of_housed (hhoused : Housed first.root first.files) : first.Settled first :=
  ⟨_, Archive.sound_start hhoused, rfl, rfl⟩

theorem Settled.insert (h : first.Settled store) (race : Race) (samples : List Recorded) :
    first.Settled (store.insert race samples).2 := by
  obtain ⟨archive, hsound, hfree, rfl⟩ := h
  exact ⟨_, hsound.inserts race samples, hfree, rfl⟩

/-- An update is a call that is not interrupted. -/
theorem Settled.upsert (h : first.Settled store) (races : List Race) :
    first.Settled (store.upsert races).2 := by
  obtain ⟨archive, hsound, hfree, rfl⟩ := h
  have hafter := Archive.run_induction hsound Archive.Sound.move
    [.arrive races, .lock archive.calls.length, .write none, .move false, .store]
  rw [Archive.run_update hfree races] at hafter
  exact ⟨_, hafter, hfree, rfl⟩

/-- Either nothing was put on file, or the held races are. -/
theorem Settled.onFile (h : first.Settled store) :
    store.index = first.index ∧ store.racesOnFile = first.racesOnFile ∨ store.OnFile := by
  obtain ⟨archive, hsound, hfree, rfl⟩ := h
  rcases hsound.onFile (by simp [hfree]) with ⟨hstored, hraces⟩ | hraces
  · refine .inl ⟨?_, hraces⟩
    rw [hsound.index_eq, hstored]
    rfl
  · exact .inr hraces

/-- What is loaded depends on the races on file only. -/
theorem loadRaces_congr {root : String} {files later : Tree}
    (hsame : later.read (racesPath root) = files.read (racesPath root)) :
    loadRaces root later = loadRaces root files := by
  unfold loadRaces
  rw [hsame]

/-- **Opening a directory again** that calls have returned to gives the store as it is, if the races
on file are those that were found at first or all held races have finite aggregates. Otherwise the
directory cannot be opened any more. -/
theorem Settled.openAt_eq {root : String} {files : Tree} (h : first.Settled store)
    (hopened : Opened root files first) (hdated : store.index.Dated) : openAt root store.files =
      (if store.racesOnFile = first.racesOnFile ∨ store.index.hasFiniteAggregates then .ok store
        else .error (.serialization (racesPath root)), store.files) := by
  obtain ⟨races, hloaded, hindex⟩ := hopened.loaded
  have hfound := h.onFile
  obtain ⟨archive, hsound, -, rfl⟩ := h
  have hroot := hsound.root_eq.trans hopened.root_eq
  have hhoused := hsound.housed
  have hordered : archive.store.index.Ordered := by
    rw [hsound.index_eq, hindex]
    exact RaceIndex.ordered_putAll (RaceIndex.ordered_ofList races) _
  rw [hroot] at hhoused
  generalize archive.store = store at hroot hhoused hordered hfound hdated ⊢
  by_cases hsame : store.racesOnFile = first.racesOnFile
  · rw [if_pos (.inl hsame)]
    have hagain : loadRaces root store.files = .ok races := by
      rw [← hloaded]
      apply loadRaces_congr
      rwa [racesOnFile, racesOnFile, hroot, hopened.root_eq] at hsame
    rcases hfound with ⟨hkept, -⟩ | honFile
    · rw [DirectoryStore.openAt_eq hopened hhoused, hagain, Except.map, ← hindex, ← hkept, ← hroot]
    · -- a document that was read before has nothing in it that cannot be read
      have hread := loadRaces_of_onFile hdated honFile
      rw [hroot, hagain] at hread
      rw [openAt_of_onFile hopened hhoused hroot hordered hdated honFile, if_pos]
      by_contra hinfinite
      rw [if_neg hinfinite] at hread
      cases hread
  · have honFile : store.OnFile := hfound.resolve_left fun hkept => hsame hkept.2
    rw [openAt_of_onFile hopened hhoused hroot hordered hdated honFile]
    simp only [hsame, false_or]

/-- An update that fails leaves the index as it is. -/
theorem index_upsert (store : DirectoryStore) (races : List Race) :
    (store.upsert races).2.index = store.index ∨
      (store.upsert races).2.index = store.index.putAll races := by
  simp only [DirectoryStore.upsert]
  split
  · exact .inl rfl
  · rename_i written hwritten
    obtain ⟨files, -, rfl⟩ := writeTemporary_cases hwritten
    split
    · exact .inl rfl
    · rename_i published hpublished
      obtain ⟨files, -, rfl⟩ := publish_cases hpublished
      exact .inr rfl

theorem index_insert (store : DirectoryStore) (race : Race) (samples : List Recorded) :
    (store.insert race samples).2.index = store.index := by
  rcases insert_cases store race samples with hsame | ⟨_, _, -, hsame⟩ <;> rw [hsame]

end DirectoryStore

end RaceIngest
