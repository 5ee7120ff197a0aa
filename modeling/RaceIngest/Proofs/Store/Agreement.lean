import RaceIngest.Proofs.Race.Readback
import RaceIngest.Proofs.Store.Places
import RaceIngest.Store.Memory

/-!
# Memory and directory answer alike

A store in a directory answers like a store in memory: what lies in the files of the directory is
what the other store holds. The index is the same, and the file of a race has a line for every
sample that was inserted for the race. A race without samples has no file, and its samples are none
in either store.

Two things can part the stores. A file can refuse, which a store in memory never does; and a line
need not be read as the sample it was written from, since a word that is no finite number is
written as null. Otherwise every operation is answered alike, whatever came before it.

## Main definitions

* `StoreAction`, `StoreAction.perform`, `StoreAction.performAll`: operations of a store,
* `DirectoryStore.IsEmpty`: nothing was stored in the directory yet,
* `DirectoryStore.Mirrors`: the invariant.

## Main statements

* `DirectoryStore.readSamples_of_onFile`: what is read of lines that were written,
* `DirectoryStore.Mirrors.perform`: one operation,
* `DirectoryStore.answers_eq`: all answers of a run.
-/

namespace RaceIngest

open Files Text

/-! ## Operations of a store -/

/-- An operation of a store, with what it is applied to. -/
inductive StoreAction where
  | insertSamples (race : Race) (samples : List Recorded)
  | upsertRaces (races : List Race)
  | selectLastSample (id : Uuid)
  | selectRace (id : Uuid)
  | selectRaces
  | selectSamples (id : Uuid)
  | selectLaps (id : Uuid)

/-- What an operation that succeeded gives. -/
inductive StoreValue where
  | nothing
  | sample (sample : Recorded)
  | race (race : Option Race)
  | races (races : List Race)
  | samples (samples : List Recorded)
  | laps (laps : List Lap)
  deriving DecidableEq

/-- The answer of a store. -/
abbrev StoreAnswer := Except StorageError StoreValue

/-- Whether an answer tells that a file could not be used. -/
def StoreAnswer.isFileFailure : StoreAnswer → Bool
  | .error (.io _) => true
  | _ => false

namespace StoreAction

variable {σ : Type} [Store σ]

/-- The outcome of a write as an answer. -/
def ofWrite (outcome : Except StorageError Unit × σ) : StoreAnswer × σ :=
  (outcome.1.map fun _ => .nothing, outcome.2)

/-- Performs an operation. -/
def perform (store : σ) : StoreAction → StoreAnswer × σ
  | .insertSamples race samples => ofWrite (Store.insertSamples store race samples)
  | .upsertRaces races => ofWrite (Store.upsertRaces store races)
  | .selectLastSample id => ((Store.lastSample store id).map .sample, store)
  | .selectRace id => ((Store.race? store id).map .race, store)
  | .selectRaces => ((Store.races store).map .races, store)
  | .selectSamples id => ((Store.samples store id).map .samples, store)
  | .selectLaps id => ((Store.laps store id).map .laps, store)

/-- Performs operations one after the other and collects the answers. -/
def performAll (store : σ) : List StoreAction → List StoreAnswer × σ
  | [] => ([], store)
  | action :: actions =>
    let (answer, next) := action.perform store
    let (answers, last) := performAll next actions
    (answer :: answers, last)

/-- The answers of operations that are performed after others. -/
theorem performAll_append (store : σ) (first second : List StoreAction) :
    (performAll store (first ++ second)).1 =
      (performAll store first).1 ++ (performAll (performAll store first).2 second).1 := by
  induction first generalizing store with
  | nil => rfl
  | cons action first ih => exact congrArg ((action.perform store).1 :: ·) (ih (action.perform store).2)

/-- The samples that an operation inserts. -/
def inserted : StoreAction → List Recorded
  | .insertSamples _ samples => samples
  | _ => []

end StoreAction

namespace DirectoryStore

/-! ## Lines -/

/-- Whether the line of a sample is read as the sample. -/
def ReadsBack (sample : Recorded) : Prop := readLine? sample.toJson.chars = some sample

/-- The line of a sample of finite words that was received at a regular time is. -/
theorem readsBack_of_isFinite {sample : Recorded} (hfinite : sample.sample.isFinite = true)
    (hregular : sample.createdAt.Regular) : ReadsBack sample := by
  rw [ReadsBack, readLine?, Json.parse?_chars sample.legible_toJson, Option.bind_some,
    Recorded.ofJson?_toJson hregular, if_pos hfinite]

theorem decode?_encode (cs : List Char) : Utf8.decode? (Utf8.encode cs) = some cs := by
  rw [Utf8.decode?, Utf8.symbols_encode, Utf8.text?_char]

theorem encode_append (first second : List Char) :
    Utf8.encode (first ++ second) = Utf8.encode first ++ Utf8.encode second :=
  List.flatMap_append

/-- The lines of some samples, and the empty one after the last line feed. -/
theorem lines_flatMap_line (samples : List Recorded) :
    lines (samples.flatMap line) = samples.map (fun sample => sample.toJson.chars) ++ [[]] := by
  induction samples with
  | nil => rfl
  | cons sample samples ih =>
      have hshape : (sample :: samples).flatMap line =
          sample.toJson.chars ++ '\n' :: samples.flatMap line := by
        simp [line]
      rw [hshape, lines, List.splitOn_append_cons_self_of_not_mem (Json.newline_notMem_chars _)]
      exact congrArg (sample.toJson.chars :: ·) ih

theorem mapM_readLine? {samples : List Recorded}
    (hreadable : ∀ sample ∈ samples, ReadsBack sample) :
    ((lines (samples.flatMap line)).filter (!isBlank ·)).mapM readLine? = some samples := by
  have hkept : (lines (samples.flatMap line)).filter (!isBlank ·) =
      samples.map fun sample => sample.toJson.chars := by
    rw [lines_flatMap_line, List.filter_append, List.filter_eq_self.mpr]
    · exact List.append_nil _
    · intro cs hmem
      obtain ⟨sample, -, rfl⟩ := List.mem_map.mp hmem
      rw [Recorded.toJson, Json.isBlank_chars_ofMembers]
      rfl
  rw [hkept]
  clear hkept
  induction samples with
  | nil => rfl
  | cons sample samples ih =>
      have hfirst : readLine? sample.toJson.chars = some sample :=
        hreadable sample List.mem_cons_self
      have hrest := ih fun later hmem => hreadable later (List.mem_cons_of_mem _ hmem)
      rw [List.map_cons, List.mapM_cons, hfirst, hrest]
      rfl

/-! ## Files -/

/-- The samples are on file: a line for each of them, or no file when there are none. -/
def Filed (root : String) (files : Tree) (id : Uuid) (samples : List Recorded) : Prop :=
  files.read (samplesPath root id) = .ok (Utf8.encode (samples.flatMap line)) ∨
    samples = [] ∧ ∀ bytes, files.read (samplesPath root id) ≠ .ok bytes

theorem namesNoFile_samplesPath (root : String) (id : Uuid) :
    namesNoFile (samplesPath root id) = false :=
  (isFileName_samples id).namesNoFile _

theorem Filed.congr {root : String} {files later : Tree} {id : Uuid} {samples : List Recorded}
    (hfiled : Filed root files id samples)
    (hsame : later.read (samplesPath root id) = files.read (samplesPath root id)) :
    Filed root later id samples := by
  unfold Filed at hfiled ⊢
  rwa [hsame]

/-- Samples that are added to the file are filed after those that were. -/
theorem Filed.append {root : String} {files later : Tree} {id : Uuid} {before samples : List Recorded}
    (hfiled : Filed root files id before)
    (hadded : files.append (samplesPath root id) (Utf8.encode (samples.flatMap line)) = .ok later) :
    Filed root later id (before ++ samples) := by
  obtain ⟨bytes, hshown, hread⟩ := Tree.read_append hadded (namesNoFile_samplesPath root id)
  have hwritten : bytes = Utf8.encode (before.flatMap line) := by
    rcases hfiled with honFile | ⟨rfl, hmissing⟩
    · rcases hshown with hthere | ⟨habsent, -⟩
      · exact Except.ok.inj (hthere.symm.trans honFile)
      · cases habsent.symm.trans honFile
    · rcases hshown with hthere | ⟨-, rfl⟩
      · exact absurd hthere (hmissing bytes)
      · rfl
  apply Or.inl
  rw [hread, hwritten, List.flatMap_append, encode_append]

/-- **What is read of lines that were written**: the samples. -/
theorem readSamples_of_onFile {store : DirectoryStore} {id : Uuid} {samples : List Recorded}
    (honFile : store.files.read (samplesPath store.root id) =
      .ok (Utf8.encode (samples.flatMap line)))
    (hreadable : ∀ sample ∈ samples, ReadsBack sample) : store.readSamples id = .ok samples := by
  simp only [readSamples, honFile, decode?_encode, mapM_readLine? hreadable]

/-- The samples on file are read, unless the file cannot be used. -/
theorem readSamples_of_filed {store : DirectoryStore} {id : Uuid} {samples : List Recorded}
    (hfiled : Filed store.root store.files id samples)
    (hreadable : ∀ sample ∈ samples, ReadsBack sample) :
    store.readSamples id = .ok samples ∨ ∃ path, store.readSamples id = .error (.io path) := by
  rcases hfiled with honFile | ⟨rfl, hmissing⟩
  · exact .inl (readSamples_of_onFile honFile hreadable)
  · simp only [readSamples]
    cases hread : store.files.read (samplesPath store.root id) with
    | ok bytes => exact absurd hread (hmissing bytes)
    | error failure =>
        cases failure with
        | notFound => exact .inl rfl
        | unusable => exact .inr ⟨_, rfl⟩

/-! ## The invariant -/

/-- The directory holds what the store in memory holds. -/
structure Mirrors (memory : MemoryStore) (store : DirectoryStore) : Prop where
  index_eq : store.index = memory.index
  housed : Housed store.root store.files
  filed : ∀ id, Filed store.root store.files id (memory.samplesOf id)
  readable : ∀ id, ∀ sample ∈ memory.samplesOf id, ReadsBack sample

section Steps

variable {memory : MemoryStore} {store : DirectoryStore}

theorem samplesOf_insert (memory : MemoryStore) (race : Race) (samples : List Recorded) (id : Uuid) :
    (memory.insert race samples).samplesOf id =
      if id = race.id then memory.samplesOf id ++ samples else memory.samplesOf id := by
  unfold MemoryStore.insert
  cases samples with
  | nil => simp
  | cons sample samples =>
      by_cases hsame : id = race.id
      · rw [if_pos hsame, hsame]
        exact MemoryStore.lookup_appendTo_self _ _ _
      · rw [if_neg hsame]
        exact congrArg (·.getD []) (MemoryStore.lookup_appendTo_of_ne hsame _ _)

/-- Samples are inserted in both stores, or the file of their race cannot be used. -/
theorem Mirrors.insert (hmirrors : Mirrors memory store) (race : Race) {samples : List Recorded}
    (hreadable : ∀ sample ∈ samples, ReadsBack sample) :
    (∃ next, store.insert race samples = (.ok (), next) ∧
      Mirrors (memory.insert race samples) next) ∨
    ∃ path next, store.insert race samples = (.error (.io path), next) := by
  by_cases hnone : samples = []
  · subst hnone
    exact .inl ⟨store, rfl, hmirrors⟩
  · have hsome : samples.isEmpty = false := by simpa using hnone
    unfold DirectoryStore.insert
    simp only [hsome, Bool.false_eq_true, if_false]
    cases hadded : store.files.append (samplesPath store.root race.id)
        (Utf8.encode (samples.flatMap line)) with
    | error failure => exact .inr ⟨_, _, rfl⟩
    | ok files =>
        refine .inl ⟨_, rfl, ?_, hmirrors.housed.keeps (Tree.keeps_of_append hadded), ?_, ?_⟩
        · rw [hmirrors.index_eq, MemoryStore.insert, hsome]
          rfl
        · intro id
          rw [samplesOf_insert]
          by_cases hsame : id = race.id
          · subst hsame
            rw [if_pos rfl]
            exact (hmirrors.filed race.id).append hadded
          · rw [if_neg hsame]
            exact (hmirrors.filed id).congr (read_samples_of_append hmirrors.housed hsame hadded)
        · intro id sample hmem
          rw [samplesOf_insert] at hmem
          split at hmem
          · rcases List.mem_append.mp hmem with hbefore | hnew
            · exact hmirrors.readable id sample hbefore
            · exact hreadable sample hnew
          · exact hmirrors.readable id sample hmem

/-- Races are put into both stores, or one of the two files cannot be used. -/
theorem Mirrors.upsert (hmirrors : Mirrors memory store) (races : List Race) :
    (∃ next, store.upsert races = (.ok (), next) ∧
      Mirrors { memory with index := memory.index.putAll races } next) ∨
    ∃ path next, store.upsert races = (.error (.io path), next) := by
  cases hupdated : store.upsert races with
  | mk result next =>
      cases result with
      | error failure =>
          obtain ⟨path, rfl⟩ := upsert_error hupdated
          exact .inr ⟨path, next, rfl⟩
      | ok done =>
          obtain ⟨hroot, hindex, hkeeps, -⟩ := onFile_of_upsert hupdated
          have hsame := sameSamples_of_upsert hmirrors.housed hupdated
          refine .inl ⟨next, rfl, ?_, ?_, ?_, hmirrors.readable⟩
          · rw [hindex, hmirrors.index_eq]
          · rw [hroot]
            exact hmirrors.housed.keeps hkeeps
          · intro id
            rw [hroot]
            exact (hmirrors.filed id).congr (hsame id)

/-- **One operation**: an answer that tells of no file is the answer of the store in memory, and
the directory goes on holding the same. -/
theorem Mirrors.perform (hmirrors : Mirrors memory store) {action : StoreAction}
    (hreadable : ∀ sample ∈ action.inserted, ReadsBack sample)
    (hundisturbed : (action.perform store).1.isFileFailure = false) :
    (action.perform store).1 = (action.perform memory).1 ∧
      Mirrors (action.perform memory).2 (action.perform store).2 := by
  -- A query of the samples of a race, whatever is made of them: a file that cannot be used shows.
  have hqueried (id : Uuid) (use : Except StorageError (List Recorded) → StoreAnswer)
      (hstrict : ∀ failure, use (.error failure) = .error failure)
      (hanswered : (use (store.readSamples id)).isFileFailure = false) :
      use (store.readSamples id) = use (.ok (memory.samplesOf id)) := by
    rcases readSamples_of_filed (hmirrors.filed id) (hmirrors.readable id)
      with hread | ⟨path, hfailed⟩
    · rw [hread]
    · rw [hfailed, hstrict] at hanswered
      cases hanswered
  cases action with
  | insertSamples race samples =>
      rcases hmirrors.insert race hreadable with ⟨next, hdone, hmirrored⟩ | ⟨path, next, hfailed⟩
      · have hanswer : (StoreAction.insertSamples race samples).perform store =
            (.ok .nothing, next) :=
          congrArg StoreAction.ofWrite hdone
        rw [hanswer]
        exact ⟨rfl, hmirrored⟩
      · have hanswer : (StoreAction.insertSamples race samples).perform store =
            (.error (.io path), next) := congrArg StoreAction.ofWrite hfailed
        rw [hanswer] at hundisturbed
        cases hundisturbed
  | upsertRaces races =>
      rcases hmirrors.upsert races with ⟨next, hdone, hmirrored⟩ | ⟨path, next, hfailed⟩
      · have hanswer : (StoreAction.upsertRaces races).perform store = (.ok .nothing, next) :=
          congrArg StoreAction.ofWrite hdone
        rw [hanswer]
        exact ⟨rfl, hmirrored⟩
      · have hanswer : (StoreAction.upsertRaces races).perform store = (.error (.io path), next) :=
          congrArg StoreAction.ofWrite hfailed
        rw [hanswer] at hundisturbed
        cases hundisturbed
  | selectLastSample id =>
      have hsame := hqueried id (fun read => (read >>= lastOf id).map StoreValue.sample)
        (fun _ => rfl) hundisturbed
      exact ⟨hsame, hmirrors⟩
  | selectRace id =>
      have hfound : store.index.find? id = memory.index.find? id := by rw [hmirrors.index_eq]
      exact ⟨congrArg (fun race => Except.ok (StoreValue.race race)) hfound, hmirrors⟩
  | selectRaces =>
      have hlisted : store.index.newestFirst = memory.index.newestFirst := by rw [hmirrors.index_eq]
      exact ⟨congrArg (fun races => Except.ok (StoreValue.races races)) hlisted, hmirrors⟩
  | selectSamples id =>
      have hsame := hqueried id (fun read => read.map StoreValue.samples) (fun _ => rfl)
        hundisturbed
      exact ⟨hsame, hmirrors⟩
  | selectLaps id =>
      have hsame := hqueried id (fun read => (read.map Lap.collect).map StoreValue.laps)
        (fun _ => rfl) hundisturbed
      exact ⟨hsame, hmirrors⟩

/-- **A run**: all answers are those of the store in memory, and in the end the directory holds the
same. -/
theorem Mirrors.performAll (hmirrors : Mirrors memory store) {actions : List StoreAction}
    (hreadable : ∀ action ∈ actions, ∀ sample ∈ action.inserted, ReadsBack sample)
    (hundisturbed : ∀ answer ∈ (StoreAction.performAll store actions).1,
      answer.isFileFailure = false) :
    (StoreAction.performAll store actions).1 = (StoreAction.performAll memory actions).1 ∧
      Mirrors (StoreAction.performAll memory actions).2 (StoreAction.performAll store actions).2 := by
  induction actions generalizing memory store with
  | nil => exact ⟨rfl, hmirrors⟩
  | cons action actions ih =>
      have hfirst : (action.perform store).1.isFileFailure = false :=
        hundisturbed _ List.mem_cons_self
      obtain ⟨hsame, hmirrored⟩ := hmirrors.perform (hreadable action List.mem_cons_self) hfirst
      obtain ⟨hrest, hlast⟩ :=
        ih hmirrored (fun later hmem => hreadable later (List.mem_cons_of_mem _ hmem))
        fun answer hmem => hundisturbed answer (List.mem_cons_of_mem _ hmem)
      exact ⟨congrArg₂ List.cons hsame hrest, hlast⟩

end Steps

/-! ## Opening where nothing is -/

/-- Nothing was stored in the directory yet. -/
structure IsEmpty (store : DirectoryStore) : Prop where
  races : ∀ bytes, store.files.read (racesPath store.root) ≠ .ok bytes
  samples : ∀ id bytes, store.files.read (samplesPath store.root id) ≠ .ok bytes

theorem loadRaces_of_missing {root : String} {files : Tree} {races : List Race}
    (hmissing : ∀ bytes, files.read (racesPath root) ≠ .ok bytes)
    (hloaded : loadRaces root files = .ok races) : races = [] := by
  unfold loadRaces at hloaded
  split at hloaded
  · rename_i bytes hread
    exact absurd hread (hmissing bytes)
  · exact (Except.ok.inj hloaded).symm
  · cases hloaded

theorem mirrors_of_openAt {root : String} {files opened : Tree} {store : DirectoryStore}
    (hopening : openAt root files = (.ok store, opened)) (hempty : store.IsEmpty) :
    Mirrors .empty store := by
  obtain ⟨-, hfound⟩ := opened_of_openAt hopening
  obtain ⟨-, hhoused⟩ := housed_of_openAt hopening
  refine ⟨?_, hhoused, ?_, ?_⟩
  · obtain ⟨races, hloaded, hindex⟩ := hfound.loaded
    have hmissing := hempty.races
    rw [hfound.root_eq] at hmissing
    rw [hindex, loadRaces_of_missing hmissing hloaded]
    rfl
  · intro id
    exact .inr ⟨rfl, hempty.samples id⟩
  · intro id sample hmem
    cases hmem

/-- **Memory and directory answer alike.** A directory that was opened while nothing was stored in it
gives the same answers as a new store in memory, whatever is asked in whatever order, as long as no
file fails and the inserted samples can be read back from their lines. -/
theorem answers_eq {root : String} {files opened : Tree} {store : DirectoryStore}
    {actions : List StoreAction}
    (hopening : openAt root files = (.ok store, opened)) (hempty : store.IsEmpty)
    (hreadable : ∀ action ∈ actions, ∀ sample ∈ action.inserted, ReadsBack sample)
    (hundisturbed : ∀ answer ∈ (StoreAction.performAll store actions).1,
      answer.isFileFailure = false) :
    (StoreAction.performAll store actions).1 =
      (StoreAction.performAll MemoryStore.empty actions).1 :=
  ((mirrors_of_openAt hopening hempty).performAll hreadable hundisturbed).1

theorem isEmpty_fresh : fresh.IsEmpty := by
  have hnothing (path : String) (bytes : List UInt8) : fresh.files.read path ≠ .ok bytes := by
    intro hread
    obtain ⟨location, hfound⟩ := Tree.exists_of_read hread
    simp only [Tree.find?, fresh, List.lookup_cons] at hfound
    split at hfound
    · cases hfound
    split at hfound
    · cases hfound
    split at hfound
    · cases hfound
    · cases hfound
  exact ⟨hnothing _, fun id => hnothing _⟩

/-- A recorded sample with a best lap, of the race `lapRace`. -/
def lapRecord (bestLap : Single) : Recorded := ⟨lapSample bestLap, ⟨2⟩, default⟩

theorem readsBack_lapRecord : ReadsBack (lapRecord .one) :=
  readsBack_of_isFinite (by decide +kernel) (.inl (by decide))

/-- A race that comes twice in one update, two of its samples and none, and queries, one of them for
a race that nobody knows. -/
def visit : List StoreAction := [
  .upsertRaces [lapRace .one, { lapRace .one with paused := true }],
  .insertSamples (lapRace .one) [lapRecord .one, lapRecord .one],
  .insertSamples (lapRace .one) [],
  .selectLastSample ⟨3⟩, .selectRace ⟨2⟩, .selectRaces, .selectLaps ⟨3⟩]

/-- Both stores give the same answers to the visit and to a query of the samples that it left: the last
sample of the unknown race is not found, and the two samples of the other race are. -/
theorem answers_of_visit :
    (StoreAction.performAll fresh (visit ++ [.selectSamples ⟨2⟩])).1 =
      (StoreAction.performAll MemoryStore.empty (visit ++ [.selectSamples ⟨2⟩])).1 ∧
    (StoreAction.performAll MemoryStore.empty visit).1[3]? = some (.error (.notFound ⟨3⟩)) ∧
    (StoreAction.performAll MemoryStore.empty (visit ++ [.selectSamples ⟨2⟩])).1[7]? =
      some (.ok (.samples [lapRecord .one, lapRecord .one])) := by
  have hreadable : ∀ action ∈ visit ++ [.selectSamples ⟨2⟩], ∀ sample ∈ action.inserted,
      ReadsBack sample := by
    have hinserted : ∀ action ∈ visit ++ [.selectSamples ⟨2⟩], ∀ sample ∈ action.inserted,
        sample = lapRecord .one := by decide +kernel
    intro action hmem sample hinside
    rw [hinserted action hmem sample hinside]
    exact readsBack_lapRecord
  have hvisited : ∀ answer ∈ (StoreAction.performAll fresh visit).1,
      answer.isFileFailure = false := by
    decide +kernel
  have hheld : (StoreAction.performAll MemoryStore.empty visit).2.samplesOf ⟨2⟩ =
      [lapRecord .one, lapRecord .one] := by decide +kernel
  have hundisturbed : ∀ answer ∈ (StoreAction.performAll fresh (visit ++ [.selectSamples ⟨2⟩])).1,
      answer.isFileFailure = false := by
    have hmirrored := ((mirrors_of_openAt openAt_empty isEmpty_fresh).performAll
      (fun action hmem => hreadable action (List.mem_append_left _ hmem)) hvisited).2
    -- The file of the race is there, so the query reads it.
    have hleft : (StoreAction.performAll fresh visit).2.readSamples ⟨2⟩ =
        .ok [lapRecord .one, lapRecord .one] := by
      rw [← hheld]
      rcases hmirrored.filed ⟨2⟩ with honFile | ⟨hnone, -⟩
      · exact readSamples_of_onFile honFile (hmirrored.readable ⟨2⟩)
      · cases hheld.symm.trans hnone
    rw [StoreAction.performAll_append, List.forall_mem_append]
    refine ⟨hvisited, ?_⟩
    intro answer hmem
    have hlast : answer = ((StoreAction.performAll fresh visit).2.readSamples ⟨2⟩).map .samples :=
      List.mem_singleton.mp hmem
    rw [hlast, hleft]
    rfl
  exact ⟨answers_eq openAt_empty isEmpty_fresh hreadable hundisturbed, by decide +kernel,
    by decide +kernel⟩

end DirectoryStore

end RaceIngest
