import RaceIngest.Proofs.Json.Following
import RaceIngest.Proofs.Store.Agreement

/-!
# What an insertion adds

An insertion writes its samples after the file of the race without a look at what is there, and
reading the race takes all lines or fails. So one line that cannot be read takes the samples with it
that were written before it. There are two such lines: that of a sample with a word that is no
finite number, which is written as null; and a line that was not ended, on which the first sample
goes on.

## Main definitions

* `DirectoryStore.endsLine`: the file of a race does not end in the middle of a line,
* `DirectoryStore.Reached`: the directory was written to by the calls of stores alone,
* `DirectoryStore.Gains`: the samples that were inserted are read after those that were there.

## Main statements

* `DirectoryStore.readLines?_lines_append`: a text that lines of samples were added to,
* `DirectoryStore.readSamples_of_insert`: what is read after an insertion,
* `DirectoryStore.Reached.endsLine`: the calls of stores end their lines,
* `DirectoryStore.insert_gains_iff`: when an insertion adds its samples.
-/

namespace RaceIngest

open Files Text

namespace DirectoryStore

/-! ## Lines -/

/-- The samples that rows of characters write, blank ones left out. -/
def readLines? (rows : List (List Char)) : Option (List Recorded) :=
  (rows.filter (!isBlank ·)).mapM readLine?

/-- What stands after the last line feed of a text. -/
def lastLine (cs : List Char) : List Char := (lines cs).getLastD []

/-- Whatever is written after a text goes on with its last line. -/
theorem exists_lines (cs : List Char) : ∃ front, '\n' ∉ lastLine cs ∧
    lines cs = front ++ [lastLine cs] ∧
    ∀ rest, lines (cs ++ rest) = front ++ lines (lastLine cs ++ rest) := by
  have hshown {front : List (List Char)} {last : List Char} (hsingle : '\n' ∉ last)
      (split : lines cs = front ++ [last]) : '\n' ∉ lastLine cs ∧ last = lastLine cs := by
    have hsame : lastLine cs = last := by simp [lastLine, split]
    exact ⟨hsame ▸ hsingle, hsame.symm⟩
  by_cases hfeed : '\n' ∈ cs
  · obtain ⟨after, before, hshape, hsingle⟩ := List.eq_append_cons_of_mem
      (List.mem_reverse.mpr hfeed)
    have hwhole : cs = before.reverse ++ '\n' :: after.reverse := by
      simpa using congrArg List.reverse hshape
    have hsingle : '\n' ∉ after.reverse := by simpa using hsingle
    have split (rest : List Char) :
        lines (cs ++ rest) = lines before.reverse ++ lines (after.reverse ++ rest) := by
      rw [hwhole, List.append_assoc, List.cons_append, lines, List.splitOn_append_cons_self]
      rfl
    have hsplit' : lines cs = lines before.reverse ++ [after.reverse] := by
      have hnothing := split []
      rwa [List.append_nil, List.append_nil, lines, lines, lines, List.splitOn_eq_singleton hsingle]
        at hnothing
    obtain ⟨hnone, hsame⟩ := hshown hsingle hsplit'
    rw [hsame] at split hsplit'
    exact ⟨_, hnone, hsplit', split⟩
  · have split : lines cs = [] ++ [cs] := List.splitOn_eq_singleton hfeed
    obtain ⟨hnone, hsame⟩ := hshown hfeed split
    refine ⟨[], hnone, hsame ▸ split, fun rest => ?_⟩
    rw [← hsame]
    rfl

theorem readLines?_append {first second : List (List Char)} : readLines? (first ++ second) =
    (readLines? first).bind fun before => (readLines? second).map (before ++ ·) := by
  simp [readLines?, List.filter_append, List.mapM_append, Option.bind_eq_bind, Option.map_eq_bind]

theorem readLines?_singleton {row : List Char} (hvisible : isBlank row = false) :
    readLines? [row] = (readLine? row).map ([·]) := by
  simp [readLines?, hvisible, Option.bind_eq_bind, Option.map_eq_bind]

theorem readLines?_blank {row : List Char} (hblank : isBlank row = true) :
    readLines? [row] = some [] := by
  simp [readLines?, hblank]

theorem isBlank_of_isSpace {cs : List Char} (hspaces : cs.all Json.isSpace = true) :
    isBlank cs = true := by
  rw [isBlank, List.all_eq_true]
  intro c hmem
  have hspace := List.all_eq_true.mp hspaces c hmem
  simp only [Json.isSpace, Bool.or_eq_true, decide_eq_true_eq] at hspace
  rcases hspace with ((rfl | rfl) | rfl) | rfl <;> rfl

section Samples

variable {recorded : Recorded} {samples : List Recorded}

theorem readLine?_chars (hregular : recorded.createdAt.Regular) :
    readLine? recorded.toJson.chars = if recorded.sample.isFinite then some recorded else none := by
  rw [readLine?, Json.parse?_chars recorded.legible_toJson, Option.bind_some,
    Recorded.ofJson?_toJson hregular]

/-- A sample that is written after a row which could be read is read when nothing but spaces stood
there, and its words are finite. -/
theorem readLine?_append {row : List Char} {held : List Recorded}
    (hreadable : readLines? [row] = some held) (hregular : recorded.createdAt.Regular) :
    readLine? (row ++ recorded.toJson.chars) =
      if row.all Json.isSpace = true ∧ recorded.sample.isFinite = true then some recorded
      else none := by
  by_cases hspaces : row.all Json.isSpace = true
  · have hsame := readLine?_chars hregular
    rw [readLine?] at hsame
    rw [readLine?, Json.parse?_append_of_space hspaces, hsame]
    simp only [hspaces, true_and]
  · rw [if_neg fun hboth => hspaces hboth.1, readLine?]
    by_cases hblank : isBlank row = true
    · rw [Json.parse?_append_of_blank hblank (by simpa using hspaces)]
      rfl
    · rw [readLines?_singleton (by simpa using hblank)] at hreadable
      obtain ⟨sample, hread, -⟩ := Option.map_eq_some_iff.mp hreadable
      obtain ⟨j, hcomplete, -⟩ := Option.bind_eq_some_iff.mp hread
      obtain ⟨rest, (hshape : recorded.toJson.chars = _)⟩ :=
        Json.exists_chars_ofMembers recorded.members
      rw [hshape, Json.parse?_append_of_complete hcomplete]
      rfl

/-- A sample is read together with those after it, or none of them is. -/
theorem bind_map_ite {p q : Prop} [Decidable p] [Decidable q] :
    (((if p then some recorded else none).map ([·])).bind fun before =>
      (if q then some samples else none).map (before ++ ·)) =
      if p ∧ q then some (recorded :: samples) else none := by
  by_cases hp : p <;> by_cases hq : q <;> simp [hp, hq]

/-- The lines of samples are read as the samples when all words are finite. -/
theorem readLines?_chars (hregular : ∀ sample ∈ samples, sample.createdAt.Regular) :
    readLines? (samples.map fun sample => sample.toJson.chars) =
      if ∀ sample ∈ samples, sample.sample.isFinite = true then some samples else none := by
  induction samples with
  | nil => rfl
  | cons sample samples ih =>
      have hfirst := readLine?_chars (hregular sample List.mem_cons_self)
      have hrest := ih fun later hmem => hregular later (List.mem_cons_of_mem _ hmem)
      have hvisible : isBlank sample.toJson.chars = false := Json.isBlank_chars_ofMembers _
      rw [List.map_cons, ← List.singleton_append, readLines?_append, readLines?_singleton hvisible,
        hfirst, hrest, bind_map_ite]
      simp only [List.forall_mem_cons]

/-- The lines of samples that go on with a row which could be read. -/
theorem readLines?_cons_chars {row : List Char} {held : List Recorded}
    (hreadable : readLines? [row] = some held)
    (hregular : ∀ sample ∈ recorded :: samples, sample.createdAt.Regular) :
    readLines? ([row ++ recorded.toJson.chars] ++ samples.map fun sample => sample.toJson.chars) =
      if row.all Json.isSpace = true ∧ ∀ sample ∈ recorded :: samples, sample.sample.isFinite = true
      then some (held ++ recorded :: samples) else none := by
  have hvisible : isBlank (row ++ recorded.toJson.chars) = false := by
    have hbrace : isBlank recorded.toJson.chars = false := Json.isBlank_chars_ofMembers _
    rw [isBlank] at hbrace ⊢
    rw [List.all_append, hbrace, Bool.and_false]
  have hfirst := readLine?_append hreadable (hregular recorded List.mem_cons_self)
  have hrest := readLines?_chars fun later hmem =>
    hregular later (List.mem_cons_of_mem recorded hmem)
  rw [readLines?_append, readLines?_singleton hvisible, hfirst, hrest]
  by_cases hspaces : row.all Json.isSpace = true
  · have hnothing : held = [] := by
      rw [readLines?_blank (isBlank_of_isSpace hspaces)] at hreadable
      exact (Option.some.inj hreadable).symm
    subst hnothing
    simp only [hspaces, true_and, bind_map_ite, List.forall_mem_cons, List.nil_append]
  · simp [hspaces]

/-- **What is read of a text that lines of samples were added to.** -/
theorem readLines?_lines_append {cs : List Char} {before : List Recorded}
    (hreadable : readLines? (lines cs) = some before) (hnonempty : samples ≠ [])
    (hregular : ∀ sample ∈ samples, sample.createdAt.Regular) :
    readLines? (lines (cs ++ samples.flatMap line)) =
      if (lastLine cs).all Json.isSpace = true ∧ ∀ sample ∈ samples, sample.sample.isFinite = true
      then some (before ++ samples) else none := by
  obtain ⟨front, hsingle, split, hsplitOn⟩ := exists_lines cs
  rw [split, readLines?_append] at hreadable
  obtain ⟨early, hreadFront, hreadable⟩ := Option.bind_eq_some_iff.mp hreadable
  obtain ⟨held, hreadLast, rfl⟩ := Option.map_eq_some_iff.mp hreadable
  obtain ⟨sample, rest, rfl⟩ := List.exists_cons_of_ne_nil hnonempty
  have hshape : lastLine cs ++ (sample :: rest).flatMap line =
      (lastLine cs ++ sample.toJson.chars) ++ '\n' :: rest.flatMap line := by
    simp [line]
  have hnone : '\n' ∉ lastLine cs ++ sample.toJson.chars := by
    simp [hsingle, Json.newline_notMem_chars]
  have hrows : lines (cs ++ (sample :: rest).flatMap line) =
      front ++ (([lastLine cs ++ sample.toJson.chars] ++
        rest.map (fun sample => sample.toJson.chars)) ++ [[]]) := by
    rw [hsplitOn, hshape, lines, List.splitOn_append_cons_self_of_not_mem hnone, List.append_assoc,
      ← lines_flatMap_line]
    rfl
  rw [hrows, readLines?_append, hreadFront, readLines?_append,
    readLines?_cons_chars hreadLast hregular, readLines?_blank rfl]
  split_ifs <;> simp

end Samples

/-! ## What is read -/

section Reading

variable {store : DirectoryStore} {id : Uuid} {samples : List Recorded}

/-- Whether nothing but spaces stands after the last line feed in the file of a race. -/
def endsLine (store : DirectoryStore) (id : Uuid) : Bool :=
  match store.files.read (samplesPath store.root id) with
  | .ok bytes => (Utf8.decode? bytes).all fun cs => (lastLine cs).all Json.isSpace
  | .error _ => true

/-- The samples of a race are read when its file is missing, or when all its lines are. -/
theorem readSamples_eq_ok (hshown : store.readSamples id = .ok samples) :
    store.files.read (samplesPath store.root id) = .error .notFound ∧ samples = [] ∨
    ∃ bytes cs, store.files.read (samplesPath store.root id) = .ok bytes ∧
      Utf8.decode? bytes = some cs ∧ readLines? (lines cs) = some samples := by
  simp only [readSamples] at hshown
  split at hshown
  · rename_i hmissing
    cases hshown
    exact .inl ⟨hmissing, rfl⟩
  · cases hshown
  · rename_i bytes hread
    split at hshown
    · cases hshown
    · rename_i cs htext
      split at hshown
      · rename_i hheld
        cases hshown
        exact .inr ⟨bytes, cs, hread, htext, hheld⟩
      · cases hshown

theorem readSamples_of_read {bytes : List UInt8} {cs : List Char}
    (hread : store.files.read (samplesPath store.root id) = .ok bytes)
    (htext : Utf8.decode? bytes = some cs) :
    store.readSamples id = match readLines? (lines cs) with
      | some samples => .ok samples
      | none => .error (.serialization (samplesPath store.root id)) := by
  simp only [readSamples, hread, htext]
  rfl

/-- Samples that were inserted came into a directory of samples. -/
theorem housed_of_append {root : String} {files later : Tree} {bytes : List UInt8}
    (hadded : files.append (samplesPath root id) bytes = .ok later) : Housed root files := by
  obtain ⟨location, -, hresolved, -⟩ := Tree.append_cases hadded
  rw [samplesPath, Tree.resolve_joinPath (isFileName_samples id)] at hresolved
  split at hresolved
  · obtain ⟨around, hwalked, hreached⟩ := Tree.exists_of_bind hresolved
    exact Tree.isDirectory_iff.mpr
      ⟨around, hwalked, (Tree.walk_name_eq_ok (isFileName_samples id) hreached).1⟩
  · cases hresolved

end Reading

/-! ## Inserting -/

section Inserting

variable {store after : DirectoryStore} {race : Race} {before samples : List Recorded}

theorem append_of_insert (hinserted : store.insert race samples = (.ok (), after))
    (hnonempty : samples ≠ []) : after.root = store.root ∧
      store.files.append (samplesPath store.root race.id) (Utf8.encode (samples.flatMap line)) =
        .ok after.files := by
  unfold insert at hinserted
  rw [if_neg (by simpa using hnonempty)] at hinserted
  simp only at hinserted
  split at hinserted
  · rename_i files hadded
    cases hinserted
    exact ⟨rfl, hadded⟩
  · cases hinserted

/-- The samples of all other races are read as before. -/
theorem readSamples_of_insert_of_ne (hinserted : store.insert race samples = (.ok (), after))
    {other : Uuid} (hdifferent : other ≠ race.id) :
    after.readSamples other = store.readSamples other := by
  by_cases hnone : samples = []
  · subst hnone
    cases hinserted
    rfl
  · obtain ⟨hroot, hadded⟩ := append_of_insert hinserted hnone
    have hsame := read_samples_of_append (housed_of_append hadded) hdifferent hadded
    simp only [readSamples, hroot, hsame]

/-- **What is read after an insertion**: the samples that were read before and those that were
inserted. But the race cannot be read any more if a word is no finite number, or if the first line
went on with one that was not ended. -/
theorem readSamples_of_insert (hread : store.readSamples race.id = .ok before)
    (hinserted : store.insert race samples = (.ok (), after)) (hnonempty : samples ≠ [])
    (hregular : ∀ sample ∈ samples, sample.createdAt.Regular) :
    after.readSamples race.id =
      if store.endsLine race.id = true ∧ ∀ sample ∈ samples, sample.sample.isFinite = true
      then .ok (before ++ samples)
      else .error (.serialization (samplesPath store.root race.id)) := by
  obtain ⟨hroot, hadded⟩ := append_of_insert hinserted hnonempty
  obtain ⟨bytes, hshown, hwritten⟩ :=
    Tree.read_append hadded (namesNoFile_samplesPath store.root race.id)
  -- A file that is missing is read like an empty one.
  obtain ⟨cs, htext, hheld, hends⟩ : ∃ cs, Utf8.decode? bytes = some cs ∧
      readLines? (lines cs) = some before ∧
      store.endsLine race.id = (lastLine cs).all Json.isSpace := by
    rcases hshown with hthere | ⟨hmissing, rfl⟩
    · rcases readSamples_eq_ok hread with ⟨hmissing, -⟩ | ⟨bytes', cs, hthere', htext, hheld⟩
      · cases hthere.symm.trans hmissing
      · obtain rfl := Except.ok.inj (hthere.symm.trans hthere')
        exact ⟨cs, htext, hheld, by simp [endsLine, hthere, htext]⟩
    · rcases readSamples_eq_ok hread with ⟨-, rfl⟩ | ⟨bytes', cs, hthere, -⟩
      · exact ⟨[], rfl, rfl, by rw [endsLine, hmissing]; rfl⟩
      · cases hmissing.symm.trans hthere
  rw [← hroot] at hwritten ⊢
  rw [readSamples_of_read hwritten (Utf8.decode?_append htext _),
    readLines?_lines_append hheld hnonempty hregular, hends]
  split_ifs <;> rfl

end Inserting

/-! ## Directories that only stores wrote to -/

/-- A store that was opened where nothing was stored, and what its calls, and those of the stores
that were opened there later, led to. -/
inductive Reached : DirectoryStore → Prop
  | opened {root : String} {files later : Tree} {store : DirectoryStore} :
    openAt root files = (.ok store, later) → store.IsEmpty → Reached store
  | reopened {store again : DirectoryStore} {later : Tree} :
    Reached store → openAt store.root store.files = (.ok again, later) → Reached again
  | performed {store : DirectoryStore} (action : StoreAction) :
    Reached store → Reached (action.perform store).2

/-- The directory of samples is there, and its files are lines of samples. -/
structure IsLined (store : DirectoryStore) : Prop where
  housed : Housed store.root store.files
  filed : ∀ id, ∃ samples, Filed store.root store.files id samples

section Reaching

variable {store : DirectoryStore}

theorem isLined_of_openAt {root : String} {files later : Tree}
    (hopening : openAt root files = (.ok store, later)) (hempty : store.IsEmpty) : store.IsLined :=
  ⟨(housed_of_openAt hopening).2, fun id => ⟨[], .inr ⟨rfl, hempty.samples id⟩⟩⟩

/-- Opening the directory again leaves the files alone. -/
theorem IsLined.reopen (hlined : store.IsLined) {again : DirectoryStore} {later : Tree}
    (hopening : openAt store.root store.files = (.ok again, later)) : again.IsLined := by
  obtain ⟨-, hfound⟩ := opened_of_openAt hopening
  have hsame : again.files = store.files := by
    have hcreated := hfound.created
    unfold Tree.createDirectories at hcreated
    split at hcreated
    · have hthere : store.files.isDirectory
          (components (samplesDirectory store.root)).reverse.reverse = true := by
        rw [List.reverse_reverse]
        exact hlined.housed
      rw [Tree.createReversed_of_isDirectory hthere] at hcreated
      exact (Prod.mk.inj hcreated).2.symm
    · cases hcreated
  refine ⟨?_, ?_⟩
  · rw [hfound.root_eq, hsame]
    exact hlined.housed
  · rw [hfound.root_eq, hsame]
    exact hlined.filed

theorem IsLined.insert (hlined : store.IsLined) (race : Race) (samples : List Recorded) :
    (store.insert race samples).2.IsLined := by
  cases hinserted : store.insert race samples with
  | mk result after =>
      cases result with
      | error failure =>
          unfold DirectoryStore.insert at hinserted
          split at hinserted
          · cases hinserted
          · simp only at hinserted
            split at hinserted
            · cases hinserted
            · cases hinserted
              exact hlined
      | ok done =>
          by_cases hnone : samples = []
          · subst hnone
            cases hinserted
            exact hlined
          · obtain ⟨hroot, hadded⟩ := append_of_insert hinserted hnone
            have hhoused := hlined.housed.keeps (Tree.keeps_of_append hadded)
            rw [← hroot] at hhoused
            refine ⟨hhoused, fun id => ?_⟩
            obtain ⟨held, hfiled⟩ := hlined.filed id
            rw [hroot]
            by_cases hsame : id = race.id
            · subst hsame
              exact ⟨held ++ samples, hfiled.append hadded⟩
            · exact ⟨held, hfiled.congr (read_samples_of_append hlined.housed hsame hadded)⟩

/-- An update leaves the place of the directory and the directory of samples, whether it succeeds
or not. -/
theorem housed_of_upsert (hhoused : Housed store.root store.files) (races : List Race) :
    (store.upsert races).2.root = store.root ∧
      Housed (store.upsert races).2.root (store.upsert races).2.files := by
  simp only [upsert]
  split
  · exact ⟨rfl, hhoused⟩
  · rename_i written hwrote
    obtain ⟨hroot, hbetween⟩ := housed_of_writeTemporary hhoused hwrote
    split
    · exact ⟨hroot, hbetween⟩
    · rename_i published hmoved
      obtain ⟨files, hrename, rfl⟩ := publish_cases hmoved
      exact ⟨hroot, hbetween.keeps (Tree.keeps_of_rename hrename)⟩

theorem IsLined.upsert (hlined : store.IsLined) (races : List Race) :
    (store.upsert races).2.IsLined := by
  obtain ⟨hroot, hhoused⟩ := housed_of_upsert hlined.housed races
  have hsame := sameSamples_of_upsert hlined.housed (Prod.eta (store.upsert races)).symm
  refine ⟨hhoused, fun id => ?_⟩
  obtain ⟨held, hfiled⟩ := hlined.filed id
  rw [hroot]
  exact ⟨held, hfiled.congr (hsame id)⟩

/-- One operation. -/
theorem IsLined.perform (hlined : store.IsLined) (action : StoreAction) :
    (action.perform store).2.IsLined := by
  cases action with
  | insertSamples race samples => exact hlined.insert race samples
  | upsertRaces races => exact hlined.upsert races
  | selectLastSample id => exact hlined
  | selectRace id => exact hlined
  | selectRaces => exact hlined
  | selectSamples id => exact hlined
  | selectLaps id => exact hlined

theorem Reached.isLined (hreached : store.Reached) : store.IsLined := by
  induction hreached with
  | opened hopening hempty => exact isLined_of_openAt hopening hempty
  | reopened _ hopening ih => exact ih.reopen hopening
  | performed action _ ih => exact ih.perform action

/-- **The files that only stores wrote to end in a line feed.** -/
theorem Reached.endsLine (hreached : store.Reached) (id : Uuid) : store.endsLine id = true := by
  obtain ⟨samples, hfiled⟩ := hreached.isLined.filed id
  unfold DirectoryStore.endsLine
  rcases hfiled with honFile | ⟨-, hmissing⟩
  · simp [honFile, decode?_encode, lastLine, lines_flatMap_line]
  · cases hread : store.files.read (samplesPath store.root id) with
    | ok bytes => exact absurd hread (hmissing bytes)
    | error failure => rfl

end Reaching

/-- What is read goes on after the samples that were read before with as many as were inserted, and
these have the same receipt times and races. -/
def Gains (before inserted : List Recorded) (read : Except StorageError (List Recorded)) : Prop :=
  ∃ samples, read = .ok samples ∧ samples.length = before.length + inserted.length ∧
    samples.take before.length = before ∧
    (samples.drop before.length).map (fun sample => (sample.createdAt, sample.race)) =
      inserted.map fun sample => (sample.createdAt, sample.race)

theorem gains_append (before inserted : List Recorded) :
    Gains before inserted (.ok (before ++ inserted)) :=
  ⟨before ++ inserted, rfl, List.length_append, List.take_left, by rw [List.drop_left]⟩

/-- What is read after an insertion, also if none were inserted. -/
theorem readSamples_after_insert {store after : DirectoryStore} {race : Race}
    {before samples : List Recorded} (hread : store.readSamples race.id = .ok before)
    (hinserted : store.insert race samples = (.ok (), after))
    (hregular : ∀ sample ∈ samples, sample.createdAt.Regular) :
    after.readSamples race.id =
      if samples = [] ∨
        store.endsLine race.id = true ∧ ∀ sample ∈ samples, sample.sample.isFinite = true
      then .ok (before ++ samples)
      else .error (.serialization (samplesPath store.root race.id)) := by
  by_cases hnone : samples = []
  · subst hnone
    cases hinserted
    rw [hread, if_pos (.inl rfl), List.append_nil]
  · simp only [hnone, false_or]
    exact readSamples_of_insert hread hinserted hnone hregular

/-- **An insertion that succeeds adds its samples to those that were there**, in whatever state the
directory is, exactly if all words are finite numbers and the file of the race did not end in the
middle of a line. Otherwise nothing of the race can be read any more. The samples of all other races
stay as they are. The calls of stores never leave a file that ends in the middle of a line, unless
one of them breaks off. -/
theorem insert_gains_iff {store after : DirectoryStore} {race : Race}
    {before samples : List Recorded} (hread : store.readSamples race.id = .ok before)
    (hinserted : store.insert race samples = (.ok (), after))
    (hregular : ∀ sample ∈ samples, sample.createdAt.Regular) :
    (Gains before samples (after.readSamples race.id) ↔
      samples = [] ∨
        store.endsLine race.id = true ∧ ∀ sample ∈ samples, sample.sample.isFinite = true) ∧
    (after.readSamples race.id = .ok (before ++ samples) ∨
      after.readSamples race.id = .error (.serialization (samplesPath store.root race.id))) ∧
    (∀ other, other ≠ race.id → after.readSamples other = store.readSamples other) ∧
    (store.Reached → store.endsLine race.id = true) := by
  have houtcome := readSamples_after_insert hread hinserted hregular
  refine ⟨?_, ?_, fun other hdifferent => readSamples_of_insert_of_ne hinserted hdifferent,
    fun hreached => hreached.endsLine race.id⟩
  · constructor
    · rintro ⟨held, hshown, -⟩
      by_contra hfails
      rw [houtcome, if_neg hfails] at hshown
      cases hshown
    · intro hholds
      rw [houtcome, if_pos hholds]
      exact gains_append before samples
  · rw [houtcome]
    split_ifs with hholds
    · exact .inl rfl
    · exact .inr rfl

theorem insert_eq {store : DirectoryStore} {race : Race} {samples : List Recorded}
    (hdone : (store.insert race samples).1 = .ok ()) :
    store.insert race samples = (.ok (), (store.insert race samples).2) := by
  rw [← hdone]

/-- A directory with one sample. -/
def lapped : DirectoryStore := (fresh.insert (lapRace .one) [lapRecord .one]).2

theorem lapped_eq : fresh.insert (lapRace .one) [lapRecord .one] = (.ok (), lapped) :=
  insert_eq (by decide +kernel)

theorem reached_lapped : lapped.Reached :=
  .performed (.insertSamples (lapRace .one) [lapRecord .one]) (.opened openAt_empty isEmpty_fresh)

theorem readSamples_lapped : lapped.readSamples (lapRace .one).id = .ok [lapRecord .one] := by
  have hnone : fresh.readSamples (lapRace .one).id = .ok [] := by decide +kernel
  have hregular : ∀ sample ∈ [lapRecord .one], sample.createdAt.Regular := by decide
  have hfinite : ∀ sample ∈ [lapRecord .one], sample.sample.isFinite = true := by decide +kernel
  have hends : fresh.endsLine (lapRace .one).id = true := by decide +kernel
  have hboth := readSamples_of_insert hnone lapped_eq (List.cons_ne_nil _ _) hregular
  exact hboth.trans (if_pos ⟨hends, hfinite⟩)

/-- A sample of finite words is added to the sample that is there, and both are read. -/
theorem gains_lap : ∃ after, lapped.insert (lapRace .one) [lapRecord .one] = (.ok (), after) ∧
    Gains [lapRecord .one] [lapRecord .one] (after.readSamples (lapRace .one).id) := by
  have hdone : (lapped.insert (lapRace .one) [lapRecord .one]).1 = .ok () := by decide +kernel
  have hregular : ∀ sample ∈ [lapRecord .one], sample.createdAt.Regular := by decide
  have hfinite : ∀ sample ∈ [lapRecord .one], sample.sample.isFinite = true := by decide +kernel
  refine ⟨_, insert_eq hdone, ?_⟩
  obtain ⟨hgains, -, -, hends⟩ := insert_gains_iff readSamples_lapped (insert_eq hdone) hregular
  exact hgains.mpr (.inr ⟨hends reached_lapped, hfinite⟩)

/-- A car can report an endless best lap. Its sample is inserted without an error after another one,
and then neither of the two can be read. -/
theorem not_gains_endless_lap :
    Wire.Packet.decode (Wire.Packet.encode (lapSample ⟨0x7f800000⟩)) = .ok (lapSample ⟨0x7f800000⟩) ∧
    lapped.Reached ∧ lapped.readSamples (lapRace .one).id = .ok [lapRecord .one] ∧
    ∃ after, lapped.insert (lapRace .one) [lapRecord ⟨0x7f800000⟩] = (.ok (), after) ∧
      after.readSamples (lapRace .one).id =
        .error (.serialization (samplesPath "data" (lapRace .one).id)) ∧
      ¬Gains [lapRecord .one] [lapRecord ⟨0x7f800000⟩] (after.readSamples (lapRace .one).id) := by
  have hdone : (lapped.insert (lapRace .one) [lapRecord ⟨0x7f800000⟩]).1 = .ok () := by
    decide +kernel
  have hregular : ∀ sample ∈ [lapRecord ⟨0x7f800000⟩], sample.createdAt.Regular := by decide
  have hendless : ¬∀ sample ∈ [lapRecord ⟨0x7f800000⟩], sample.sample.isFinite = true := by
    decide +kernel
  have hunread := (readSamples_of_insert readSamples_lapped (insert_eq hdone)
    (List.cons_ne_nil _ _) hregular).trans (if_neg fun hboth => hendless hboth.2)
  refine ⟨by decide +kernel, reached_lapped, readSamples_lapped, _, insert_eq hdone, hunread, ?_⟩
  rintro ⟨samples, hshown, -⟩
  rw [hunread] at hshown
  cases hshown

end DirectoryStore

end RaceIngest
