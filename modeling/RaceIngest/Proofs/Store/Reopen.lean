import RaceIngest.Store.Directory
import RaceIngest.Wire.Packet
import RaceIngest.Proofs.Files.Tree
import RaceIngest.Proofs.Race.Document
import RaceIngest.Proofs.Store.Index

/-!
# A directory that is opened again

Every update that succeeds leaves the document of the held races in the directory, and takes no
directory away. So opening the directory again reads exactly that document. It gives the races back
if the aggregates of all of them are finite; a single race with an aggregate that is not makes the
document unreadable, and with it the directory.

## Main definitions

* `DirectoryStore.updateAll?`, a row of updates that all succeed,
* `DirectoryStore.OnFile`, what such an update leaves behind.

## Main statements

* `DirectoryStore.onFile_of_upsert`: what one update keeps,
* `DirectoryStore.loadRaces_of_onFile`: what is read of the held races,
* `DirectoryStore.openAt_of_onFile`: opening where the held races are on file,
* `DirectoryStore.reopens_iff`: when the races are there again.
-/

namespace RaceIngest

/-! ## Indexes of dated races -/

namespace RaceIndex

/-- The timestamps of all races are regular. -/
def Dated (index : RaceIndex) : Prop := ∀ race ∈ index.races, race.Dated

/-- Whether the aggregates of all races are finite. -/
def hasFiniteAggregates (index : RaceIndex) : Bool := index.races.all Race.hasFiniteAggregates

/-- What holds of all races and of what is inserted, holds after the insertion. -/
theorem forall_insertWith {holds : Race → Prop} {combine : Race → Race → Race} {race : Race}
    (hnew : holds race) (hmerged : ∀ stored, holds stored → holds (combine stored race))
    {races : List Race} (hall : ∀ stored ∈ races, holds stored) :
    ∀ stored ∈ insertWith combine race races, holds stored := by
  induction races with
  | nil =>
      intro stored hmem
      rwa [List.mem_singleton.mp hmem]
  | cons first rest ih =>
      have hhead := hall first List.mem_cons_self
      have htail : ∀ stored ∈ rest, holds stored := fun stored hmem =>
        hall stored (List.mem_cons_of_mem _ hmem)
      unfold insertWith
      split
      · exact List.forall_mem_cons.mpr ⟨hmerged first hhead, htail⟩
      split
      · exact List.forall_mem_cons.mpr ⟨hnew, hall⟩
      · exact List.forall_mem_cons.mpr ⟨hhead, ih htail⟩

theorem dated_putAll {index : RaceIndex} (hdated : index.Dated) {races : List Race}
    (hupdates : ∀ race ∈ races, race.Dated) : (index.putAll races).Dated := by
  induction races generalizing index with
  | nil => exact hdated
  | cons race races ih =>
      have hfirst : race.Dated := hupdates race List.mem_cons_self
      have hput : (index.put race).Dated :=
        forall_insertWith hfirst (fun _ hstored => hstored.mergeMutable hfirst) hdated
      exact ih hput fun later hmem => hupdates later (List.mem_cons_of_mem _ hmem)

theorem dated_ofList {races : List Race} (hdated : ∀ race ∈ races, race.Dated) :
    (ofList races).Dated := by
  have hinserted (sorted : List Race) (hbefore : ∀ race ∈ sorted, race.Dated) : ∀ stored ∈
      races.foldl (fun sorted race => insertWith (fun _ last => last) race sorted) sorted,
      stored.Dated := by
    induction races generalizing sorted with
    | nil => exact hbefore
    | cons race races ih =>
        have hfirst : race.Dated := hdated race List.mem_cons_self
        have hput : ∀ stored ∈ insertWith (fun _ last => last) race sorted, stored.Dated :=
          forall_insertWith hfirst (fun _ _ => hfirst) hbefore
        exact ih (fun later hmem => hdated later (List.mem_cons_of_mem _ hmem)) _ hput
  exact hinserted [] fun race hmem => absurd hmem List.not_mem_nil

end RaceIndex

namespace DirectoryStore

open Files Text

/-! ## The document of an index -/

theorem legible_racesDocument (index : RaceIndex) : (racesDocument index).Legible := by
  rw [racesDocument, Json.Legible, Json.legibleItems_iff]
  intro item hmem
  obtain ⟨race, -, rfl⟩ := List.mem_map.mp hmem
  exact race.legible_toJson

/-- Races are read back from their documents if all their aggregates are finite. -/
theorem mapM_ofJson?_toJson {races : List Race} (hdated : ∀ race ∈ races, race.Dated) :
    (races.map Race.toJson).mapM Race.ofJson? =
      if races.all Race.hasFiniteAggregates then some races else none := by
  induction races with
  | nil => rfl
  | cons race races ih =>
      have hfirst := Race.ofJson?_toJson (hdated race List.mem_cons_self)
      have hrest := ih fun later hmem => hdated later (List.mem_cons_of_mem _ hmem)
      rw [List.map_cons, List.mapM_cons, hfirst, hrest, List.all_cons]
      cases race.hasFiniteAggregates with
      | false => rfl
      | true =>
          cases races.all Race.hasFiniteAggregates <;> rfl

/-- What is read from the document of an index. -/
theorem racesOfDocument?_racesDocument {index : RaceIndex} (hdated : index.Dated) :
    racesOfDocument? (racesDocument index) =
      if index.hasFiniteAggregates then some index.newestFirst else none := by
  have hsame : index.newestFirst.Perm index.races := List.mergeSort_perm _ _
  have hraces : ∀ race ∈ index.newestFirst, race.Dated := fun race hmem =>
    hdated race (hsame.mem_iff.mp hmem)
  rw [racesDocument, racesOfDocument?, mapM_ofJson?_toJson hraces, hsame.all_eq]
  rfl

/-! ## Updates -/

/-- The document of the held races is on file. -/
def OnFile (store : DirectoryStore) : Prop :=
  store.files.read (racesPath store.root) =
    .ok (Utf8.encode ((racesDocument store.index).indented 0))

/-- The document of an index in the temporary file. -/
theorem writeTemporary_cases {store written : DirectoryStore} {index : RaceIndex}
    (hdone : store.writeTemporary index = .ok written) : ∃ files,
      store.files.write (temporaryPath store.root)
        (Utf8.encode ((racesDocument index).indented 0)) = .ok files ∧
      written = { store with files } := by
  simp only [writeTemporary] at hdone
  split at hdone
  · rename_i files hresult
    cases hdone
    exact ⟨files, hresult, rfl⟩
  · cases hdone

/-- The temporary file in the place of the races. -/
theorem publish_cases {store published : DirectoryStore} {index : RaceIndex}
    (hdone : store.publish index = .ok published) : ∃ files,
      store.files.rename (temporaryPath store.root) (racesPath store.root) = .ok files ∧
      published = { store with files, index } := by
  simp only [publish] at hdone
  split at hdone
  · rename_i files hresult
    cases hdone
    exact ⟨files, hresult, rfl⟩
  · cases hdone

theorem namesNoFile_racesPath (root : String) : namesNoFile (racesPath root) = false :=
  namesNoFile_joinPath root (c := 'n') (by decide) (by decide) (by decide)

theorem namesNoFile_temporaryPath (root : String) : namesNoFile (temporaryPath root) = false :=
  namesNoFile_joinPath root (c := 'p') (by decide) (by decide) (by decide)

/-- What an update that succeeds does: the races are put into the index and on file, and no
directory is lost. -/
theorem onFile_of_upsert {store next : DirectoryStore} {races : List Race}
    (hupdated : store.upsert races = (.ok (), next)) :
    next.root = store.root ∧ next.index = store.index.putAll races ∧
      store.files.Keeps next.files ∧ next.OnFile := by
  simp only [upsert] at hupdated
  split at hupdated
  · cases hupdated
  · rename_i written hwrote
    split at hupdated
    · cases hupdated
    · rename_i published hmoved
      cases hupdated
      obtain ⟨middle, hwrite, rfl⟩ := writeTemporary_cases hwrote
      obtain ⟨files, hrename, rfl⟩ := publish_cases hmoved
      have htemporary := Tree.read_write hwrite (namesNoFile_temporaryPath store.root)
      exact ⟨rfl, rfl, (Tree.keeps_of_write hwrite).trans (Tree.keeps_of_rename hrename),
        Tree.read_rename hrename htemporary (namesNoFile_racesPath store.root)⟩

/-- What is loaded where the held races are on file. -/
theorem loadRaces_of_onFile {store : DirectoryStore} (hdated : store.index.Dated)
    (honFile : store.OnFile) : loadRaces store.root store.files =
      if store.index.hasFiniteAggregates then .ok store.index.newestFirst
      else .error (.serialization (racesPath store.root)) := by
  have hdocument := Json.parseBytes?_indented (legible_racesDocument store.index) 0
  rw [OnFile] at honFile
  simp only [loadRaces, honFile, hdocument, Option.bind_some, racesOfDocument?_racesDocument hdated]
  cases store.index.hasFiniteAggregates <;> rfl

/-- A row of updates, which goes on as long as they succeed. -/
def updateAll? (store : DirectoryStore) : List (List Race) → Except StorageError DirectoryStore
  | [] => .ok store
  | races :: batches =>
    match Store.upsertRaces store races with
    | (.ok (), next) => next.updateAll? batches
    | (.error failure, _) => .error failure

/-- What a row of updates that succeed does. -/
structure Updated (store : DirectoryStore) (batches : List (List Race)) (last : DirectoryStore) :
    Prop where
  root_eq : last.root = store.root
  index_eq : last.index = store.index.putAll batches.flatten
  keeps : store.files.Keeps last.files
  /-- The last update of the row put the races on file. -/
  onFile : batches ≠ [] → last.OnFile
  unchanged : batches = [] → last = store

/-- Every update keeps what the row has done so far. -/
theorem updated_of_updateAll? {store last : DirectoryStore} {batches : List (List Race)}
    (hrun : store.updateAll? batches = .ok last) : store.Updated batches last := by
  induction batches generalizing store with
  | nil =>
      cases hrun
      exact ⟨rfl, rfl, fun _ hdirectory => hdirectory, fun hsome => absurd rfl hsome, fun _ => rfl⟩
  | cons races batches ih =>
      rw [updateAll?] at hrun
      split at hrun
      · rename_i next hfirst
        obtain ⟨hroot, hindex, hkeeps, honFile⟩ := onFile_of_upsert hfirst
        have hrest := ih hrun
        refine ⟨hrest.root_eq.trans hroot, ?_, hkeeps.trans hrest.keeps, fun _ => ?_, nofun⟩
        · rw [hrest.index_eq, hindex, List.flatten_cons, RaceIndex.putAll_append]
        · by_cases hdone : batches = []
          · rwa [hrest.unchanged hdone]
          · exact hrest.onFile hdone
      · cases hrun

/-! ## Opening -/

/-- What opening a directory found there. -/
structure Opened (root : String) (files : Tree) (store : DirectoryStore) : Prop where
  root_eq : store.root = root
  created : files.createDirectories (samplesDirectory root) = (.ok (), store.files)
  /-- The held races are those that were loaded. -/
  loaded : ∃ races, loadRaces root store.files = .ok races ∧ store.index = .ofList races

theorem opened_of_openAt {root : String} {files later : Tree} {store : DirectoryStore}
    (hopening : openAt root files = (.ok store, later)) :
    later = store.files ∧ Opened root files store := by
  unfold openAt at hopening
  split at hopening
  · cases hopening
  · rename_i middle hcreated
    cases hloaded : loadRaces root middle with
    | error failure =>
        rw [hloaded] at hopening
        cases hopening
    | ok races =>
        rw [hloaded] at hopening
        cases hopening
        exact ⟨rfl, rfl, hcreated, races, hloaded, rfl⟩

/-- What is loaded is dated. -/
theorem dated_of_loadRaces {root : String} {files : Tree} {races : List Race}
    (hloaded : loadRaces root files = .ok races) : ∀ race ∈ races, race.Dated := by
  unfold loadRaces at hloaded
  split at hloaded
  · split at hloaded
    · rename_i hread
      cases hloaded
      obtain ⟨document, -, hitems⟩ := Option.bind_eq_some_iff.mp hread
      unfold racesOfDocument? at hitems
      split at hitems
      · intro race hmem
        obtain ⟨document, -, hread⟩ := Json.exists_of_mem_mapM hitems hmem
        exact Race.dated_of_ofJson? hread
      · cases hitems
    · cases hloaded
  · cases hloaded
    exact fun race hmem => absurd hmem List.not_mem_nil
  · cases hloaded

/-- The directory of samples is there. -/
def Housed (root : String) (files : Tree) : Prop :=
  files.isDirectory (components (samplesDirectory root)) = true

theorem Housed.keeps {root : String} {files later : Tree} (hhoused : Housed root files)
    (hkeeps : files.Keeps later) : Housed root later :=
  Tree.isDirectory_of_keeps hkeeps hhoused

theorem housed_of_opened {root : String} {files : Tree} {store : DirectoryStore}
    (hopened : Opened root files store) :
    Housed root store.files := by
  have hcreated := hopened.created
  unfold Tree.createDirectories at hcreated
  split at hcreated
  · have hthere := Tree.isDirectory_of_createReversed hcreated
    rwa [List.reverse_reverse] at hthere
  · cases hcreated

/-- Opening a directory again finds what is on file. -/
theorem openAt_eq {root : String} {files later : Tree} {store : DirectoryStore}
    (hopened : Opened root files store) (hhoused : Housed root later) :
    openAt root later = ((loadRaces root later).map fun races =>
      { root, index := .ofList races, files := later }, later) := by
  have hagain := Tree.createDirectories_again hopened.created hhoused
  simp only [openAt, hagain]
  cases loadRaces root later <;> rfl

/-- Nothing changes when a directory is opened again at once. -/
theorem openAt_of_opened {root : String} {files : Tree} {store : DirectoryStore}
    (hopened : Opened root files store) : openAt root store.files = (.ok store, store.files) := by
  obtain ⟨races, hloaded, hindex⟩ := hopened.loaded
  rw [openAt_eq hopened (housed_of_opened hopened), hloaded, Except.map, ← hindex,
    ← hopened.root_eq]

/-- **Opening a directory where the held races are on file** gives the store as it is, unless a
race has an aggregate that is no finite number: then the directory cannot be opened any more. -/
theorem openAt_of_onFile {root : String} {files : Tree} {store last : DirectoryStore}
    (hopened : Opened root files store) (hhoused : Housed root last.files)
    (hsame : last.root = root) (hordered : last.index.Ordered) (hdated : last.index.Dated)
    (honFile : last.OnFile) : openAt root last.files =
      (if last.index.hasFiniteAggregates then .ok last
        else .error (.serialization (racesPath root)), last.files) := by
  have hagain := loadRaces_of_onFile hdated honFile
  rw [hsame] at hagain
  rw [openAt_eq hopened hhoused, hagain]
  cases last.index.hasFiniteAggregates with
  | true =>
      simp only [if_true, Except.map, RaceIndex.ofList_newestFirst hordered, ← hsame]
  | false => rfl

section Updates

variable {root : String} {files opened : Tree} {store last : DirectoryStore}
  {batches : List (List Race)}

/-- The held races are in order. -/
theorem ordered_of_updates (hfound : Opened root files store)
    (hupdated : store.Updated batches last) : last.index.Ordered := by
  obtain ⟨races, -, hindex⟩ := hfound.loaded
  rw [hupdated.index_eq, hindex]
  exact RaceIndex.ordered_putAll (RaceIndex.ordered_ofList races) _

/-- The races of a directory that was opened are dated. -/
theorem dated_of_openAt {later : Tree} (hopening : openAt root files = (.ok store, later)) :
    store.index.Dated := by
  obtain ⟨races, hloaded, hindex⟩ := (opened_of_openAt hopening).2.loaded
  rw [hindex]
  exact RaceIndex.dated_ofList (dated_of_loadRaces hloaded)

/-- **When races survive.** After updates that all succeeded, the directory can be opened again with
the same races if and only if nothing was put on file, or all races on file are dated and have
finite aggregates. -/
theorem reopens_iff (hopening : openAt root files = (.ok store, opened))
    (hupdates : store.updateAll? batches = .ok last) :
    (∃ reopened, openAt root last.files = (.ok reopened, last.files) ∧
      (∀ id, Store.race? reopened id = Store.race? last id) ∧
      Store.races reopened = Store.races last) ↔
    batches = [] ∨ ∀ race ∈ last.index.races, race.Dated ∧ race.hasFiniteAggregates := by
  obtain ⟨-, hfound⟩ := opened_of_openAt hopening
  have hupdated := updated_of_updateAll? hupdates
  by_cases hnone : batches = []
  · rw [hupdated.unchanged hnone]
    exact iff_of_true ⟨store, openAt_of_opened hfound, fun _ => rfl, rfl⟩ (.inl hnone)
  · have hagain (hdated : last.index.Dated) :=
      openAt_of_onFile hfound ((housed_of_opened hfound).keeps hupdated.keeps)
        (hupdated.root_eq.trans hfound.root_eq) (ordered_of_updates hfound hupdated) hdated
        (hupdated.onFile hnone)
    constructor
    · rintro ⟨reopened, hreopening, -, hraces⟩
      have hdated : last.index.Dated := by
        intro race hmem
        have hlisted : race ∈ reopened.index.newestFirst := by
          rw [Except.ok.inj hraces]
          exact (List.mergeSort_perm _ _).mem_iff.mpr hmem
        exact dated_of_openAt hreopening race ((List.mergeSort_perm _ _).mem_iff.mp hlisted)
      rw [hagain hdated] at hreopening
      split at hreopening
      · rename_i hfinite
        exact .inr fun race hmem => ⟨hdated race hmem, List.all_eq_true.mp hfinite race hmem⟩
      · cases hreopening
    · rintro (hempty | hheld)
      · exact absurd hempty hnone
      · have hfinite : last.index.hasFiniteAggregates = true :=
          List.all_eq_true.mpr fun race hmem => (hheld race hmem).2
        refine ⟨last, ?_, fun _ => rfl, rfl⟩
        rw [hagain fun race hmem => (hheld race hmem).1, if_pos hfinite]

end Updates

/-- A directory that was opened where nothing was. -/
def fresh : DirectoryStore :=
  ⟨"data", .empty, ⟨[(["data", "samples"], .directory), (["data"], .directory)]⟩⟩

theorem openAt_empty : openAt "data" .empty = (.ok fresh, fresh.files) := by decide +kernel

/-- A sample on the track with a best lap. -/
def lapSample (bestLap : Single) : Sample :=
  { (default : Sample) with isRaceOn := 1, currentLap := .one, bestLap }

/-- The race that begins with a sample, with the aggregates of the sample. -/
def lapRace (bestLap : Single) : Race :=
  (Race.start (lapSample bestLap) ⟨1⟩ ⟨2⟩ default).update (lapSample bestLap)

/-- A race with a best lap of one second that is started and then paused is there again. -/
theorem reopened_of_paused_race : ∃ store last reopened,
    openAt "data" .empty = (.ok store, store.files) ∧
    store.updateAll? [[lapRace .one], [{ lapRace .one with paused := true }]] = .ok last ∧
    last.index.races = [{ lapRace .one with paused := true }] ∧
    openAt "data" last.files = (.ok reopened, last.files) ∧
    (∀ id, Store.race? reopened id = Store.race? last id) ∧
    Store.races reopened = Store.races last := by
  have hheld : (fresh.updateAll? [[lapRace .one], [{ lapRace .one with paused := true }]]).map
      (fun last => last.index.races) = .ok [{ lapRace .one with paused := true }] := by
    decide +kernel
  have hfit : ∀ race ∈ [{ lapRace .one with paused := true }],
      race.Dated ∧ race.hasFiniteAggregates := by
    intro race hmem
    rw [List.mem_singleton.mp hmem]
    refine ⟨⟨.inl (by decide), fun t hfinish => ?_⟩, by decide +kernel⟩
    have hunfinished : (none : Option Calendar.Timestamp) = some t := hfinish
    cases hunfinished
  cases hupdates : fresh.updateAll? [[lapRace .one], [{ lapRace .one with paused := true }]] with
  | error failure =>
      rw [hupdates] at hheld
      cases hheld
  | ok last =>
      rw [hupdates] at hheld
      have hraces := Except.ok.inj hheld
      obtain ⟨reopened, hagain⟩ :=
        (reopens_iff openAt_empty hupdates).mpr (.inr fun race hmem => hfit race (hraces ▸ hmem))
      exact ⟨fresh, last, reopened, openAt_empty, hupdates, hraces, hagain⟩

/-- A car can report an endless best lap, a session passes it on, the update succeeds, and the
directory cannot be opened any more. -/
theorem not_reopened_of_endless_lap :
    Wire.Packet.decode (Wire.Packet.encode (lapSample ⟨0x7f800000⟩)) = .ok (lapSample ⟨0x7f800000⟩) ∧
    ∃ store last, openAt "data" .empty = (.ok store, store.files) ∧
      store.updateAll? [[lapRace ⟨0x7f800000⟩]] = .ok last ∧
      (openAt "data" last.files).1 = .error (.serialization "data/races.json") := by
  refine ⟨by decide +kernel, ?_⟩
  have houtcome : (fresh.updateAll? [[lapRace ⟨0x7f800000⟩]]).map
      (fun last => (openAt "data" last.files).1) = .ok (.error (.serialization "data/races.json")) := by
    decide +kernel
  cases hupdates : fresh.updateAll? [[lapRace ⟨0x7f800000⟩]] with
  | error failure =>
      rw [hupdates] at houtcome
      cases houtcome
  | ok last =>
      rw [hupdates] at houtcome
      exact ⟨fresh, last, openAt_empty, hupdates, Except.ok.inj houtcome⟩

end DirectoryStore

end RaceIngest
