import RaceIngest.Proofs.Files.Names
import RaceIngest.Proofs.Store.Reopen
import RaceIngest.Proofs.Uuid

/-!
# The files of a directory are kept apart

The races, the temporary file and the samples of every race lie in files of different names. So an
update of the races leaves all samples alone, and samples that are inserted for a race leave alone
the races and the samples of all others. None of this is lost: the directories that were there when
the store was opened stay.

## Main definitions

* `DirectoryStore.Housed`: the directory of samples is there,
* `DirectoryStore.SameSamples`: the samples of every race are read alike.

## Main statements

* `DirectoryStore.housed_of_openAt`: opening leaves it there,
* `DirectoryStore.sameSamples_of_upsert`: an update leaves all samples alone, whether it succeeds or
  not,
* `DirectoryStore.read_races_of_append`, `DirectoryStore.read_samples_of_append`: what an insertion
  leaves alone.
-/

namespace RaceIngest

open Files

/-- The texts of different identifiers differ. -/
theorem Uuid.chars_inj {first second : Uuid} : first.chars = second.chars ↔ first = second := by
  constructor
  · intro hsame
    have hread := Uuid.parse?_chars first
    rw [hsame, Uuid.parse?_chars second] at hread
    exact (Option.some.inj hread).symm
  · rintro rfl
    rfl

namespace DirectoryStore

/-! ## Names -/

theorem isFileName_races : IsFileName "races.json" := ⟨by decide, 'n', by decide, by decide⟩

theorem isFileName_temporary : IsFileName "races.json.tmp" := ⟨by decide, 'p', by decide, by decide⟩

theorem isFileName_directory : IsFileName "samples" := ⟨by decide, 's', by decide, by decide⟩

theorem toList_samplesName (id : Uuid) :
    (id.text ++ ".jsonl").toList = id.chars ++ ".jsonl".toList := by
  rw [String.toList_append, Uuid.text, String.toList_ofList]

theorem digitChar_ne_slash (n : Fin 16) : Text.Hex.digitChar n ≠ '/' := by
  revert n
  decide

theorem slash_notMem_digits (count n : Nat) : '/' ∉ Text.Hex.digits count n := by
  induction count generalizing n with
  | zero => exact List.not_mem_nil
  | succ count ih =>
      have hlast := digitChar_ne_slash ⟨n % 16, Nat.mod_lt n (by decide)⟩
      rw [Text.Hex.digits, List.mem_append, List.mem_singleton]
      rintro (hfront | hsame)
      · exact ih _ hfront
      · exact hlast hsame.symm

theorem slash_notMem_chars (id : Uuid) : '/' ∉ id.chars := by
  have hdigits := slash_notMem_digits 32 id.toNat
  have hfront (n : Nat) {cs : List Char} (hnone : '/' ∉ cs) : '/' ∉ cs.take n :=
    fun hmem => hnone (List.mem_of_mem_take hmem)
  have hback (n : Nat) {cs : List Char} (hnone : '/' ∉ cs) : '/' ∉ cs.drop n :=
    fun hmem => hnone (List.mem_of_mem_drop hmem)
  simp [Uuid.chars, hfront, hback, hdigits]

theorem isFileName_samples (id : Uuid) : IsFileName (id.text ++ ".jsonl") := by
  constructor
  · rw [toList_samplesName, List.mem_append]
    rintro (hinside | hending)
    · exact slash_notMem_chars id hinside
    · exact absurd hending (by decide)
  · rw [toList_samplesName, List.getLast?_append]
    exact ⟨'l', rfl, by decide⟩

theorem length_samplesName (id : Uuid) : (id.text ++ ".jsonl").toList.length = 42 := by
  rw [toList_samplesName, List.length_append, Uuid.length_chars]
  rfl

/-- The files of different races have different names. -/
theorem samplesName_ne {id other : Uuid} (hdifferent : id ≠ other) :
    id.text ++ ".jsonl" ≠ other.text ++ ".jsonl" := by
  intro hsame
  have hchars := congrArg String.toList hsame
  rw [toList_samplesName, toList_samplesName] at hchars
  exact hdifferent (Uuid.chars_inj.mp (List.append_cancel_right hchars))

theorem samplesName_ne_races (id : Uuid) : id.text ++ ".jsonl" ≠ "races.json" := by
  intro hsame
  have hlength := length_samplesName id
  rw [hsame] at hlength
  exact absurd hlength (by decide)

theorem samplesName_ne_temporary (id : Uuid) : id.text ++ ".jsonl" ≠ "races.json.tmp" := by
  intro hsame
  have hlength := length_samplesName id
  rw [hsame] at hlength
  exact absurd hlength (by decide)

/-! ## The directories of an opened store -/

variable {root : String} {files later : Tree}

/-- The directory of samples lies in the directory of the store. -/
theorem Housed.around (hhoused : Housed root files) :
    files.isDirectory (components root) = true :=
  Tree.isDirectory_of_joinPath isFileName_directory hhoused

/-- **An opened store has its directory of samples.** -/
theorem housed_of_openAt {store : DirectoryStore}
    (hopening : openAt root files = (.ok store, later)) :
    store.root = root ∧ Housed store.root store.files := by
  obtain ⟨-, hopened⟩ := opened_of_openAt hopening
  refine ⟨hopened.root_eq, ?_⟩
  rw [hopened.root_eq]
  exact housed_of_opened hopened

/-! ## What an update of the races leaves alone -/

/-- The samples of every race are read alike in two trees. -/
def SameSamples (root : String) (files later : Tree) : Prop :=
  ∀ id, later.read (samplesPath root id) = files.read (samplesPath root id)

theorem SameSamples.trans {last : Tree} (hfirst : SameSamples root files later)
    (hsecond : SameSamples root later last) : SameSamples root files last :=
  fun id => (hsecond id).trans (hfirst id)

section Writing

variable {bytes : List UInt8}

theorem sameSamples_of_write (hhoused : Housed root files)
    (hwritten : files.write (temporaryPath root) bytes = .ok later) :
    SameSamples root files later :=
  fun id => Tree.read_write_of_ne hhoused (isFileName_samples id) isFileName_temporary
    (samplesName_ne_temporary id) hwritten

theorem sameSamples_of_rename (hhoused : Housed root files)
    (hmoved : files.rename (temporaryPath root) (racesPath root) = .ok later) :
    SameSamples root files later :=
  fun id => Tree.read_rename_of_ne hhoused (isFileName_samples id) isFileName_temporary
    isFileName_races (samplesName_ne_temporary id) (samplesName_ne_races id) hmoved

/-- What is written to the temporary file leaves the races alone. -/
theorem read_races_of_write (hhoused : Housed root files)
    (hwritten : files.write (temporaryPath root) bytes = .ok later) :
    later.read (racesPath root) = files.read (racesPath root) :=
  Tree.read_write_of_ne hhoused.around isFileName_races isFileName_temporary (by decide) hwritten

/-- What is inserted for a race leaves the races alone. -/
theorem read_races_of_append {id : Uuid} (hhoused : Housed root files)
    (hadded : files.append (samplesPath root id) bytes = .ok later) :
    later.read (racesPath root) = files.read (racesPath root) :=
  Tree.read_append_of_ne hhoused.around isFileName_races (isFileName_samples id)
    (samplesName_ne_races id).symm hadded

/-- What is inserted for a race leaves the samples of all others alone. -/
theorem read_samples_of_append {id other : Uuid} (hhoused : Housed root files)
    (hdifferent : other ≠ id) (hadded : files.append (samplesPath root id) bytes = .ok later) :
    later.read (samplesPath root other) = files.read (samplesPath root other) :=
  Tree.read_append_of_ne hhoused (isFileName_samples other) (isFileName_samples id)
    (samplesName_ne hdifferent) hadded

end Writing

section Updating

variable {store written published next : DirectoryStore} {index : RaceIndex} {races : List Race}
  {failure : StorageError}

theorem writeTemporary_error (hfailed : store.writeTemporary index = .error failure) :
    failure = .io (temporaryPath store.root) := by
  simp only [writeTemporary] at hfailed
  split at hfailed
  · cases hfailed
  · exact (Except.error.inj hfailed).symm

theorem publish_error (hfailed : store.publish index = .error failure) :
    failure = .io (racesPath store.root) := by
  simp only [publish] at hfailed
  split at hfailed
  · cases hfailed
  · exact (Except.error.inj hfailed).symm

/-- An update fails only because a file cannot be used. -/
theorem upsert_error (hfailed : store.upsert races = (.error failure, next)) :
    ∃ path, failure = .io path := by
  simp only [upsert] at hfailed
  split at hfailed
  · rename_i hrefused
    cases hfailed
    exact ⟨_, writeTemporary_error hrefused⟩
  · split at hfailed
    · rename_i hrefused
      cases hfailed
      exact ⟨_, publish_error hrefused⟩
    · cases hfailed

theorem sameSamples_of_writeTemporary (hhoused : Housed store.root store.files)
    (hdone : store.writeTemporary index = .ok written) :
    SameSamples store.root store.files written.files := by
  obtain ⟨files, hwrite, rfl⟩ := writeTemporary_cases hdone
  exact sameSamples_of_write hhoused hwrite

theorem housed_of_writeTemporary (hhoused : Housed store.root store.files)
    (hdone : store.writeTemporary index = .ok written) :
    written.root = store.root ∧ Housed written.root written.files := by
  obtain ⟨files, hwrite, rfl⟩ := writeTemporary_cases hdone
  exact ⟨rfl, hhoused.keeps (Tree.keeps_of_write hwrite)⟩

theorem sameSamples_of_publish (hhoused : Housed store.root store.files)
    (hdone : store.publish index = .ok published) :
    SameSamples store.root store.files published.files := by
  obtain ⟨files, hrename, rfl⟩ := publish_cases hdone
  exact sameSamples_of_rename hhoused hrename

/-- **An update leaves all samples alone**, whether it succeeds or not. -/
theorem sameSamples_of_upsert {result : Except StorageError Unit}
    (hhoused : Housed store.root store.files) (hupdated : store.upsert races = (result, next)) :
    SameSamples store.root store.files next.files := by
  simp only [upsert] at hupdated
  split at hupdated
  · cases hupdated
    exact fun id => rfl
  · rename_i written hwrote
    have hfirst := sameSamples_of_writeTemporary hhoused hwrote
    obtain ⟨hroot, hbetween⟩ := housed_of_writeTemporary hhoused hwrote
    split at hupdated
    · cases hupdated
      exact hfirst
    · rename_i published hmoved
      cases hupdated
      have hsecond := sameSamples_of_publish hbetween hmoved
      rw [hroot] at hsecond
      exact hfirst.trans hsecond

end Updating

end DirectoryStore

end RaceIngest
