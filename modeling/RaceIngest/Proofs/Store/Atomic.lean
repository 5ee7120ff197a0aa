import RaceIngest.Proofs.Store.Archive

/-!
# Updates are atomic

Only moving changes the races on file, and only storing changes the index, so whoever looks at the
file at any moment finds the complete document that the holder of the lock found, or the complete one
that it is about to store. A call that fails has done neither; what it wrote is in the temporary file,
and the next call writes that anew.

## Main definitions

* `DirectoryStore.Untouched`: what a step other than moving and storing keeps,
* `Archive.Sound`, the invariant.

## Main statements

* `Archive.Sound.move`: every step keeps the invariant,
* `Archive.updates_are_atomic`: what calls do to the index, the races and the samples.
-/

namespace RaceIngest

open Files Text

/-! ## Races in the order of their start -/

/-- The races of an index are ordered by their start, the last one first. -/
theorem RaceIndex.pairwise_newestFirst (index : RaceIndex) :
    index.newestFirst.Pairwise fun a b => b.startedAt ≤ a.startedAt := by
  have hsorted : index.newestFirst.Pairwise fun a b =>
      decide (b.startedAt ≤ a.startedAt) = true := by
    apply List.pairwise_mergeSort
    · intro a b c hfirst hsecond
      simp only [decide_eq_true_eq, Calendar.Timestamp.le_iff] at hfirst hsecond ⊢
      exact hsecond.trans hfirst
    · intro a b
      simp only [Bool.or_eq_true, decide_eq_true_eq, Calendar.Timestamp.le_iff]
      exact le_total _ _
  exact hsorted.imp of_decide_eq_true

namespace DirectoryStore

variable {store : DirectoryStore}

/-! ## What a step does to the files -/

/-- The index, the races on file and all samples are as before, and no directory is lost. -/
structure Untouched (before after : DirectoryStore) : Prop where
  root_eq : after.root = before.root
  index_eq : after.index = before.index
  keeps : before.files.Keeps after.files
  races_eq : after.racesOnFile = before.racesOnFile
  samples_eq : SameSamples before.root before.files after.files

theorem Untouched.refl (store : DirectoryStore) : Untouched store store :=
  ⟨rfl, rfl, fun _ hdirectory => hdirectory, rfl, fun _ => rfl⟩

theorem untouched_of_write {files : Tree} {bytes : List UInt8}
    (hhoused : Housed store.root store.files)
    (hwritten : store.files.write (temporaryPath store.root) bytes = .ok files) :
    Untouched store { store with files } :=
  ⟨rfl, rfl, Tree.keeps_of_write hwritten, read_races_of_write hhoused hwritten,
    sameSamples_of_write hhoused hwritten⟩

/-- Whatever a write that failed leaves behind, it is in the temporary file. -/
theorem untouched_afterFault (hhoused : Housed store.root store.files) (fault : WriteFault) :
    Untouched store (store.afterFault fault) := by
  cases fault with
  | refused => exact .refl store
  | brokenOff bytes =>
      simp only [afterFault]
      split
      · rename_i hwritten
        exact untouched_of_write hhoused hwritten
      · exact .refl store

theorem untouched_writeTemporary {written : DirectoryStore} {index : RaceIndex}
    (hhoused : Housed store.root store.files) (hdone : store.writeTemporary index = .ok written) :
    Untouched store written ∧
      written.files.read (temporaryPath written.root) = .ok (documentOf index) := by
  obtain ⟨files, hwrite, rfl⟩ := writeTemporary_cases hdone
  exact ⟨untouched_of_write hhoused hwrite,
    Tree.read_write hwrite (namesNoFile_temporaryPath store.root)⟩

/-- Moving puts what the temporary file holds in the place of the races. -/
theorem moveTemporary_cases {moved : DirectoryStore} (hdone : store.moveTemporary = .ok moved) :
    ∃ files, store.files.rename (temporaryPath store.root) (racesPath store.root) = .ok files ∧
      moved = { store with files } := by
  simp only [moveTemporary] at hdone
  split at hdone
  · rename_i files hrename
    cases hdone
    exact ⟨files, hrename, rfl⟩
  · cases hdone

/-- An insertion adds to the samples of its race, or does nothing. -/
theorem insert_cases (store : DirectoryStore) (race : Race) (samples : List Recorded) :
    (store.insert race samples).2 = store ∨
    ∃ bytes files, store.files.append (samplesPath store.root race.id) bytes = .ok files ∧
      (store.insert race samples).2 = { store with files } := by
  simp only [insert]
  split
  · exact .inl rfl
  · split
    · rename_i files hadded
      exact .inr ⟨_, files, hadded, rfl⟩
    · exact .inl rfl

/-- What is inserted leaves the temporary file alone. -/
theorem read_temporary_of_append {root : String} {files later : Tree} {id : Uuid} {bytes : List UInt8}
    (hhoused : Housed root files) (hadded : files.append (samplesPath root id) bytes = .ok later) :
    later.read (temporaryPath root) = files.read (temporaryPath root) :=
  Tree.read_append_of_ne hhoused.around isFileName_temporary (isFileName_samples id)
    (samplesName_ne_temporary id).symm hadded

end DirectoryStore

open DirectoryStore

namespace Archive

/-! ## The invariant -/

/-- What holds of a call that returned. If it failed, the index and the races on file were left as they
were found; if it succeeded, its races were put into the index that was found, and the document of the
index was left on file. -/
def Kept (call : UpdateCall) : Prop :=
  match call.stage with
  | .returned found left (.error _) => left.index = found.index ∧ left.racesOnFile = found.racesOnFile
  | .returned found left (.ok ()) =>
    left.index = found.index.putAll call.races ∧ left.racesOnFile = .ok (documentOf left.index)
  | _ => True

/-- What holds of the call that holds the lock, while the store is the given one. -/
structure Holds (store : DirectoryStore) (holder : Holder) : Prop where
  next_eq : holder.next = holder.found.index.putAll holder.races
  index_eq : store.index = holder.found.index
  found : holder.phase ≠ .storing → store.racesOnFile = holder.found.racesOnFile
  written : holder.phase = .moving →
    store.files.read (temporaryPath store.root) = .ok (documentOf holder.next)
  moved : holder.phase = .storing → store.racesOnFile = .ok (documentOf holder.next)

/-- The races of the calls that succeeded, in the order in which the calls began. -/
def batches (archive : Archive) : List (List Race) :=
  (archive.calls.filter UpdateCall.succeeded).map UpdateCall.races

/-- The invariant of an archive that began with a store. -/
structure Sound (first : DirectoryStore) (archive : Archive) : Prop where
  root_eq : archive.store.root = first.root
  housed : Housed archive.store.root archive.store.files
  holding : ∀ holder, archive.holder = some holder →
    archive.calls[holder.call]? = some ⟨holder.races, .holding⟩ ∧ Holds archive.store holder
  index_eq : archive.store.index = first.index.putAll archive.stored.flatten
  stored_perm : archive.stored.Perm archive.batches
  /-- Unless the index is just being stored, the file is as it was at first, or it has the document of
  the index. -/
  onFile : (∀ holder, archive.holder = some holder → holder.phase ≠ .storing) →
    archive.stored = [] ∧ archive.store.racesOnFile = first.racesOnFile ∨
      archive.store.racesOnFile = .ok (documentOf archive.store.index)
  kept : ∀ call ∈ archive.calls, Kept call

section Steps

variable {first : DirectoryStore} {archive : Archive}

/-- A call that goes from one stage to another is exchanged for itself. -/
theorem perm_set {calls : List UpdateCall} {n : Nat} {before : UpdateCall} (after : UpdateCall)
    (hthere : calls[n]? = some before) :
    ∃ others, calls.Perm (before :: others) ∧ (calls.set n after).Perm (after :: others) := by
  obtain ⟨hlt, hhere⟩ := List.getElem?_eq_some_iff.mp hthere
  have htaken := List.getElem_cons_eraseIdx_perm hlt
  rw [hhere] at htaken
  exact ⟨calls.eraseIdx n, htaken.symm, List.set_perm_cons_eraseIdx hlt after⟩

/-- The races of the calls that succeeded, after a call that had not gone on. -/
theorem batches_set {calls : List UpdateCall} {n : Nat} {before : UpdateCall} (after : UpdateCall)
    (hthere : calls[n]? = some before) (hpending : before.succeeded = false) :
    (((calls.set n after).filter UpdateCall.succeeded).map UpdateCall.races).Perm
      ((calls.filter UpdateCall.succeeded).map UpdateCall.races ++
        if after.succeeded then [after.races] else []) := by
  obtain ⟨others, htaken, hgiven⟩ := perm_set after hthere
  have hsame := (htaken.filter UpdateCall.succeeded).map UpdateCall.races
  have hnext := (hgiven.filter UpdateCall.succeeded).map UpdateCall.races
  rw [List.filter_cons_of_neg (by simp [hpending])] at hsame
  cases hdone : after.succeeded with
  | false =>
      rw [List.filter_cons_of_neg (by simp [hdone])] at hnext
      simpa [hdone] using hnext.trans hsame.symm
  | true =>
      rw [List.filter_cons_of_pos hdone, List.map_cons] at hnext
      refine hnext.trans ?_
      simpa [hdone] using (hsame.symm.cons after.races).trans (List.perm_append_singleton _ _).symm

theorem sound_start {first : DirectoryStore} (hhoused : Housed first.root first.files) :
    Sound first ⟨first, [], none, []⟩ :=
  ⟨rfl, hhoused, nofun, rfl, .refl _, fun _ => .inl ⟨rfl, rfl⟩, nofun⟩

/-- A call that goes on keeps what holds of all calls, if it holds of the call then. -/
theorem kept_set {calls : List UpdateCall} {n : Nat} {after : UpdateCall}
    (hkept : ∀ call ∈ calls, Kept call) (hnew : Kept after) :
    ∀ call ∈ calls.set n after, Kept call := by
  intro call hmem
  rcases List.mem_or_eq_of_mem_set hmem with hold | rfl
  · exact hkept call hold
  · exact hnew

/-- What is on file stays there while the index and the races stay as they are. -/
theorem Sound.onFile_of_untouched {after : DirectoryStore} (hsound : Sound first archive)
    (hresting : ∀ holder, archive.holder = some holder → holder.phase ≠ .storing)
    (hindex : after.index = archive.store.index)
    (hraces : after.racesOnFile = archive.store.racesOnFile) :
    archive.stored = [] ∧ after.racesOnFile = first.racesOnFile ∨
      after.racesOnFile = .ok (documentOf after.index) := by
  rw [hindex, hraces]
  exact hsound.onFile hresting

theorem Sound.arrives (hsound : Sound first archive) (races : List Race) :
    Sound first { archive with calls := archive.calls ++ [⟨races, .waiting⟩] } := by
  refine ⟨hsound.root_eq, hsound.housed, ?_, hsound.index_eq, ?_, hsound.onFile, ?_⟩
  · intro holder hheld
    obtain ⟨hthere, hholds⟩ := hsound.holding holder hheld
    have hlt := (List.getElem?_eq_some_iff.mp hthere).1
    exact ⟨(List.getElem?_append_left hlt).trans hthere, hholds⟩
  · have hsame : (archive.calls ++ [UpdateCall.mk races .waiting]).filter UpdateCall.succeeded =
        archive.calls.filter UpdateCall.succeeded := by
      simp [UpdateCall.succeeded]
    rw [batches, hsame]
    exact hsound.stored_perm
  · rw [List.forall_mem_append]
    exact ⟨hsound.kept, by simp [Kept]⟩

theorem Sound.locks (hsound : Sound first archive) {n : Nat} {races : List Race}
    (hfree : archive.holder = none) (hwaiting : archive.calls[n]? = some ⟨races, .waiting⟩) :
    Sound first { archive with
      calls := archive.calls.set n ⟨races, .holding⟩
      holder := some ⟨n, races, archive.store, archive.store.index.putAll races, .writing⟩ } := by
  refine ⟨hsound.root_eq, hsound.housed, ?_, hsound.index_eq, ?_, ?_, kept_set hsound.kept trivial⟩
  · intro holder hheld
    cases hheld
    have hlt := (List.getElem?_eq_some_iff.mp hwaiting).1
    exact ⟨List.getElem?_set_self hlt, rfl, rfl, fun _ => rfl, nofun, nofun⟩
  · have hsame := batches_set ⟨races, .holding⟩ hwaiting rfl
    rw [if_neg (by simp [UpdateCall.succeeded]), List.append_nil] at hsame
    exact hsound.stored_perm.trans hsame.symm
  · intro _
    apply hsound.onFile
    rw [hfree]
    nofun

theorem Sound.writes (hsound : Sound first archive) {holder : Holder} {written : DirectoryStore}
    (hheld : archive.holder = some holder) (hphase : holder.phase = .writing)
    (hdone : archive.store.writeTemporary holder.next = .ok written) :
    Sound first
      { archive with store := written, holder := some { holder with phase := .moving } } := by
  obtain ⟨hthere, hholds⟩ := hsound.holding holder hheld
  obtain ⟨huntouched, hdocument⟩ := untouched_writeTemporary hsound.housed hdone
  have hresting : holder.phase ≠ .storing := by simp [hphase]
  refine ⟨huntouched.root_eq.trans hsound.root_eq, ?_, ?_,
    huntouched.index_eq.trans hsound.index_eq, hsound.stored_perm, ?_, hsound.kept⟩
  · show Housed written.root written.files
    rw [huntouched.root_eq]
    exact hsound.housed.keeps huntouched.keeps
  · intro next hsame
    cases hsame
    exact ⟨hthere, hholds.next_eq, huntouched.index_eq.trans hholds.index_eq,
      fun _ => huntouched.races_eq.trans (hholds.found hresting), fun _ => hdocument, nofun⟩
  · intro _
    apply hsound.onFile_of_untouched _ huntouched.index_eq huntouched.races_eq
    intro other hsame
    cases hheld.symm.trans hsame
    exact hresting

theorem Sound.fails (hsound : Sound first archive) {holder : Holder} {left : DirectoryStore}
    (failure : StorageError) (hheld : archive.holder = some holder)
    (hphase : holder.phase ≠ .storing)
    (hrest : left = archive.store ∨ ∃ fault, left = archive.store.afterFault fault) :
    Sound first (archive.release holder left (.error failure)) := by
  obtain ⟨hthere, hholds⟩ := hsound.holding holder hheld
  have huntouched : Untouched archive.store left := by
    rcases hrest with rfl | ⟨fault, rfl⟩
    · exact .refl _
    · exact untouched_afterFault hsound.housed fault
  refine ⟨huntouched.root_eq.trans hsound.root_eq, ?_, nofun,
    huntouched.index_eq.trans hsound.index_eq, ?_, ?_, kept_set hsound.kept ?_⟩
  · show Housed left.root left.files
    rw [huntouched.root_eq]
    exact hsound.housed.keeps huntouched.keeps
  · have hsame := batches_set ⟨holder.races, .returned holder.found left (.error failure)⟩
      hthere rfl
    rw [if_neg (by simp [UpdateCall.succeeded]), List.append_nil] at hsame
    exact hsound.stored_perm.trans hsame.symm
  · intro _
    apply hsound.onFile_of_untouched _ huntouched.index_eq huntouched.races_eq
    intro other hsame
    cases hheld.symm.trans hsame
    exact hphase
  · exact ⟨huntouched.index_eq.trans hholds.index_eq,
      huntouched.races_eq.trans (hholds.found hphase)⟩

theorem Sound.moves (hsound : Sound first archive) {holder : Holder} {moved : DirectoryStore}
    (hheld : archive.holder = some holder) (hphase : holder.phase = .moving)
    (hdone : archive.store.moveTemporary = .ok moved) :
    Sound first
      { archive with store := moved, holder := some { holder with phase := .storing } } := by
  obtain ⟨hthere, hholds⟩ := hsound.holding holder hheld
  obtain ⟨files, hrename, rfl⟩ := moveTemporary_cases hdone
  have hdocument := Tree.read_rename hrename (hholds.written hphase)
    (namesNoFile_racesPath archive.store.root)
  refine ⟨hsound.root_eq, hsound.housed.keeps (Tree.keeps_of_rename hrename), ?_, hsound.index_eq,
    hsound.stored_perm, ?_, hsound.kept⟩
  · intro next hsame
    cases hsame
    exact ⟨hthere, hholds.next_eq, hholds.index_eq, fun hresting => absurd rfl hresting, nofun,
      fun _ => hdocument⟩
  · intro hresting
    exact absurd rfl (hresting _ rfl)

theorem Sound.stores (hsound : Sound first archive) {holder : Holder}
    (hheld : archive.holder = some holder) (hphase : holder.phase = .storing) :
    Sound first { archive.release holder { archive.store with index := holder.next } (.ok ()) with
      stored := archive.stored ++ [holder.races] } := by
  obtain ⟨hthere, hholds⟩ := hsound.holding holder hheld
  refine ⟨hsound.root_eq, hsound.housed, nofun, ?_, ?_, fun _ => .inr (hholds.moved hphase),
    kept_set hsound.kept ⟨hholds.next_eq, hholds.moved hphase⟩⟩
  · show holder.next = first.index.putAll (archive.stored ++ [holder.races]).flatten
    rw [hholds.next_eq, ← hholds.index_eq, hsound.index_eq, List.flatten_concat,
      RaceIndex.putAll_append]
  · let left : DirectoryStore := { archive.store with index := holder.next }
    have hsame := batches_set ⟨holder.races, .returned holder.found left (.ok ())⟩ hthere rfl
    exact (hsound.stored_perm.append_right _).trans hsame.symm

theorem Sound.inserts (hsound : Sound first archive) (race : Race) (samples : List Recorded) :
    Sound first { archive with store := (archive.store.insert race samples).2 } := by
  rcases insert_cases archive.store race samples with hsame | ⟨bytes, files, hadded, hsame⟩
  · rw [hsame]
    exact hsound
  · have hraces := read_races_of_append hsound.housed hadded
    have htemporary := read_temporary_of_append hsound.housed hadded
    rw [hsame]
    refine ⟨hsound.root_eq, hsound.housed.keeps (Tree.keeps_of_append hadded), ?_, hsound.index_eq,
      hsound.stored_perm, fun hresting => hsound.onFile_of_untouched hresting rfl hraces,
      hsound.kept⟩
    intro holder hheld
    obtain ⟨hthere, hholds⟩ := hsound.holding holder hheld
    exact ⟨hthere, hholds.next_eq, hholds.index_eq,
      fun hresting => hraces.trans (hholds.found hresting),
      fun hmoving => htemporary.trans (hholds.written hmoving),
      fun hstoring => hraces.trans (hholds.moved hstoring)⟩

/-- **Every step keeps the invariant.** -/
theorem Sound.move {after : Archive} {action : ArchiveAction} (hsound : Sound first archive)
    (hmove : archive.Move action after) : Sound first after := by
  cases hmove with
  | arrives races => exact hsound.arrives races
  | locks n races hfree hwaiting => exact hsound.locks hfree hwaiting
  | writes holder written hheld hphase hdone => exact hsound.writes hheld hphase hdone
  | fails action holder left failure hheld hphase hupdate hrest =>
      exact hsound.fails failure hheld hphase hrest
  | moves holder moved hheld hphase hdone => exact hsound.moves hheld hphase hdone
  | stores holder hheld hphase => exact hsound.stores hheld hphase
  | inserts race samples => exact hsound.inserts race samples

/-- Steps of calls that update the races leave all samples alone. -/
theorem Sound.sameSamples {after : Archive} {action : ArchiveAction} (hsound : Sound first archive)
    (hmove : archive.Move action after) (hupdate : action.isUpdate = true) :
    SameSamples archive.store.root archive.store.files after.store.files := by
  cases hmove with
  | arrives | locks => exact fun _ => rfl
  | writes holder written hheld hphase hdone =>
      exact (untouched_writeTemporary hsound.housed hdone).1.samples_eq
  | fails action holder left failure hheld hphase hupdate hrest =>
      rcases hrest with rfl | ⟨fault, rfl⟩
      · exact fun _ => rfl
      · exact (untouched_afterFault hsound.housed fault).samples_eq
  | moves holder moved hheld hphase hdone =>
      obtain ⟨files, hrename, rfl⟩ := moveTemporary_cases hdone
      exact sameSamples_of_rename hsound.housed hrename
  | stores => exact fun _ => rfl
  | inserts => cases hupdate

end Steps

/-! ## Runs -/

/-- An archive on a store that nobody updates yet. -/
def start (store : DirectoryStore) : Archive := ⟨store, [], none, []⟩

theorem sound_run {root : String} {files opened : Tree} {store : DirectoryStore}
    (hopening : openAt root files = (.ok store, opened)) (actions : List ArchiveAction) :
    Sound store ((start store).run actions) :=
  run_induction (sound_start (housed_of_openAt hopening).2) Sound.move actions

/-- **Updates are atomic, and none is lost.** In every state that any number of calls can reach side by
side on a directory that was opened, while samples are inserted and whichever writes and moves fail:

* a call that failed left the index and the races on file as it found them;
* a call that succeeded put all its races into the index it found, in order, and left on file the
  indented document of exactly the races of that index, the last started first;
* the races on file are the complete document that was there when the holder of the lock came, or the
  complete one that it is about to store, and the index is the one that it found;
* altogether the file is as it was first, while nothing was stored, or the complete document of the
  index, or of the one that is about to be stored;
* the index is what the batches of the calls that succeeded make of the first one, in some order;
* no further step of a call, whatever comes of it, changes the samples of any race. -/
theorem updates_are_atomic {root : String} {files opened : Tree} {store : DirectoryStore}
    (hopening : openAt root files = (.ok store, opened)) (actions : List ArchiveAction) :
    let archive := (start store).run actions
    (∀ call ∈ archive.calls, ∀ found left failure, call.stage = .returned found left (.error failure) →
      left.index = found.index ∧ left.racesOnFile = found.racesOnFile) ∧
    (∀ call ∈ archive.calls, ∀ found left, call.stage = .returned found left (.ok ()) →
      left.index = found.index.putAll call.races ∧
      ∃ listed : List Race, listed.Perm left.index.races ∧
        (listed.Pairwise fun a b => b.startedAt ≤ a.startedAt) ∧
        left.racesOnFile = .ok (Utf8.encode ((Json.array (listed.map Race.toJson)).indented 0))) ∧
    (∀ holder, archive.holder = some holder →
      archive.store.index = holder.found.index ∧ holder.next = holder.found.index.putAll holder.races ∧
      (archive.store.racesOnFile = holder.found.racesOnFile ∨
        archive.store.racesOnFile = .ok (documentOf holder.next))) ∧
    (archive.stored = [] ∧ archive.store.racesOnFile = store.racesOnFile ∨
      archive.store.racesOnFile = .ok (documentOf archive.store.index) ∨
      ∃ holder, archive.holder = some holder ∧
        archive.store.racesOnFile = .ok (documentOf holder.next)) ∧
    (∃ order : List (List Race), order.Perm archive.batches ∧
      archive.store.index = store.index.putAll order.flatten) ∧
    ∀ action, action.isUpdate = true →
      SameSamples root archive.store.files (archive.step action).store.files := by
  intro archive
  have hsound : Sound store archive := sound_run hopening actions
  refine ⟨?_, ?_, ?_, ?_, ⟨archive.stored, hsound.stored_perm, hsound.index_eq⟩, ?_⟩
  · intro call hmem found left failure hstage
    have hkept := hsound.kept call hmem
    rwa [Kept, hstage] at hkept
  · intro call hmem found left hstage
    have hkept := hsound.kept call hmem
    rw [Kept, hstage] at hkept
    obtain ⟨hindex, hdocument⟩ := hkept
    exact ⟨hindex, left.index.newestFirst, List.mergeSort_perm _ _, left.index.pairwise_newestFirst,
      hdocument⟩
  · intro holder hheld
    obtain ⟨-, hholds⟩ := hsound.holding holder hheld
    refine ⟨hholds.index_eq, hholds.next_eq, ?_⟩
    by_cases hphase : holder.phase = .storing
    · exact .inr (hholds.moved hphase)
    · exact .inl (hholds.found hphase)
  · cases hheld : archive.holder with
    | none =>
        rcases hsound.onFile (by simp [hheld]) with hfirst | hdocument
        · exact .inl hfirst
        · exact .inr (.inl hdocument)
    | some holder =>
        obtain ⟨-, hholds⟩ := hsound.holding holder hheld
        by_cases hphase : holder.phase = .storing
        · exact .inr (.inr ⟨holder, rfl, hholds.moved hphase⟩)
        · rcases hsound.onFile (by simpa [hheld] using hphase) with hfirst | hdocument
          · exact .inl hfirst
          · exact .inr (.inl hdocument)
  · intro action hupdate
    have hopened : archive.store.root = root :=
      hsound.root_eq.trans (housed_of_openAt hopening).1
    rw [step]
    cases htaken : archive.step? action with
    | none => exact fun _ => rfl
    | some after =>
        have hsame := hsound.sameSamples (move_of_step? htaken) hupdate
        rwa [hopened] at hsame

/-- Three calls at once. The second is the first to hold the lock, and fails to move its file; then
the first call breaks off writing, and the last one finds what both left behind and succeeds. -/
def contest : List ArchiveAction := [
  .arrive [{ lapRace .one with paused := true }], .arrive [{ lapRace .one with inProgress := false }],
  .lock 1, .arrive [lapRace .one], .write none, .insert (lapRace .one) [⟨lapSample .one, ⟨2⟩, default⟩],
  .move true, .lock 0, .write (some (.brokenOff [0x5b])), .lock 2, .write none, .move false, .store]

/-- Only the races of the last call are in the index and on file. -/
theorem atomic_in_contest :
    let archive := (start fresh).run contest
    archive.calls.length = 3 ∧ archive.holder.isNone ∧ archive.batches = [[lapRace .one]] ∧
    (∀ call ∈ archive.calls, ∀ found left failure, call.stage = .returned found left (.error failure) →
      left.index = found.index ∧ left.racesOnFile = found.racesOnFile) ∧
    ∃ order : List (List Race), order.Perm [[lapRace .one]] ∧
      archive.store.index = fresh.index.putAll order.flatten := by
  intro archive
  obtain ⟨hfailed, -, -, -, horder, -⟩ := updates_are_atomic openAt_empty contest
  have hbatches : archive.batches = [[lapRace .one]] := by decide +kernel
  refine ⟨by decide +kernel, by decide +kernel, hbatches, hfailed, ?_⟩
  rw [← hbatches]
  exact horder

end Archive

end RaceIngest
