import RaceIngest.Proofs.Store.Places

/-!
# Updates side by side

An `Archive` is a store in a directory together with the calls that update its races. Any number of
calls go on side by side, while samples are inserted. A call waits for the lock of the index and holds
it until it returns; in between it writes the temporary file, moves it onto the races, and stores the
index, each in a step of its own. Writing may break off and leave whatever it has written, and
moving may fail; the call then returns with the failure.

Two histories are kept beside the state: which store a call found when it took the lock and which one
it left, and the races of the calls that stored them, in the order in which they did.

## Main definitions

* `UpdateCall`, `Archive`, `ArchiveAction`,
* `Archive.step?`, `Archive.run`, and `Archive.Move`, what one step does.

## Main statements

* `Archive.move_of_step?`, `Archive.run_induction`: a run is made of moves,
* `Archive.run_update`: a call that is not interrupted does what `DirectoryStore.upsert` does.
-/

namespace RaceIngest

open Files Text

namespace DirectoryStore

/-- What is read where the races are. -/
def racesOnFile (store : DirectoryStore) : Except FileError (List UInt8) :=
  store.files.read (racesPath store.root)

/-- The bytes of the document of an index. -/
def documentOf (index : RaceIndex) : List UInt8 := Utf8.encode ((racesDocument index).indented 0)

/-- How writing the temporary file can fail. -/
inductive WriteFault where
  /-- Nothing was written. -/
  | refused
  /-- It broke off and left these bytes. -/
  | brokenOff (bytes : List UInt8)
  deriving DecidableEq

/-- The store after writing the temporary file failed. -/
def afterFault (store : DirectoryStore) : WriteFault → DirectoryStore
  | .refused => store
  | .brokenOff bytes =>
    match store.files.write (temporaryPath store.root) bytes with
    | .ok files => { store with files }
    | .error _ => store

/-- Moves the temporary file onto the races. -/
def moveTemporary (store : DirectoryStore) : Except StorageError DirectoryStore :=
  match store.files.rename (temporaryPath store.root) (racesPath store.root) with
  | .ok files => .ok { store with files }
  | .error _ => .error (.io (racesPath store.root))

/-- Publishing moves the temporary file and stores the index. -/
theorem publish_eq (store : DirectoryStore) (index : RaceIndex) :
    store.publish index = store.moveTemporary.map fun moved => { moved with index } := by
  simp only [publish, moveTemporary]
  cases store.files.rename (temporaryPath store.root) (racesPath store.root) <;> rfl

end DirectoryStore

open DirectoryStore

/-! ## Calls -/

/-- How far the holder of the lock is. -/
inductive UpdatePhase where
  | writing
  | moving
  | storing
  deriving DecidableEq

/-- The call that holds the lock. -/
structure Holder where
  call : Nat
  races : List Race
  /-- The store when the lock was taken. -/
  found : DirectoryStore
  /-- The index that is to be stored. -/
  next : RaceIndex
  phase : UpdatePhase

/-- Where a call that updates the races is. -/
inductive UpdateStage where
  | waiting
  | holding
  /-- It returned; it found the one store when it took the lock, and left the other. -/
  | returned (found left : DirectoryStore) (result : Except StorageError Unit)

/-- A call that updates the races. -/
structure UpdateCall where
  races : List Race
  stage : UpdateStage := .waiting

/-- Whether a call returned without an error. -/
def UpdateCall.succeeded (call : UpdateCall) : Bool :=
  match call.stage with
  | .returned _ _ (.ok ()) => true
  | _ => false

/-- A store and the calls that update its races. -/
structure Archive where
  store : DirectoryStore
  /-- The calls, in the order in which they began. -/
  calls : List UpdateCall := []
  holder : Option Holder := none
  /-- The races that were stored, one entry for every call that did, in the order of storing. -/
  stored : List (List Race) := []

/-- One atomic step. -/
inductive ArchiveAction where
  /-- A call begins. -/
  | arrive (races : List Race)
  /-- A call takes the lock. -/
  | lock (n : Nat)
  /-- The holder of the lock writes the temporary file, or fails to. -/
  | write (fault : Option WriteFault)
  /-- The holder of the lock moves the temporary file onto the races, or fails to. -/
  | move (fails : Bool)
  /-- The holder of the lock stores the index and returns. -/
  | store
  /-- Samples are inserted. -/
  | insert (race : Race) (samples : List Recorded)

/-- Whether an action is a step of a call that updates the races. -/
def ArchiveAction.isUpdate : ArchiveAction → Bool
  | .insert _ _ => false
  | _ => true

namespace Archive

/-- The archive after the holder of the lock returned. -/
def release (archive : Archive) (holder : Holder) (left : DirectoryStore)
    (result : Except StorageError Unit) : Archive :=
  { archive with
    store := left
    holder := none
    calls := archive.calls.set holder.call ⟨holder.races, .returned holder.found left result⟩ }

/-- A call takes the lock if nobody holds it. -/
def lock? (archive : Archive) (n : Nat) : Option Archive :=
  match archive.holder, archive.calls[n]? with
  | none, some ⟨races, .waiting⟩ =>
    some { archive with
      calls := archive.calls.set n ⟨races, .holding⟩
      holder := some ⟨n, races, archive.store, archive.store.index.putAll races, .writing⟩ }
  | _, _ => none

/-- The holder of the lock writes the temporary file. -/
def write? (archive : Archive) (fault : Option WriteFault) : Option Archive :=
  match archive.holder with
  | some ⟨call, races, found, next, .writing⟩ =>
    let holder : Holder := ⟨call, races, found, next, .writing⟩
    match fault with
    | some fault =>
      let path := temporaryPath archive.store.root
      some (archive.release holder (archive.store.afterFault fault) (.error (.io path)))
    | none =>
      match archive.store.writeTemporary next with
      | .error failure => some (archive.release holder archive.store (.error failure))
      | .ok written =>
        some { archive with store := written, holder := some { holder with phase := .moving } }
  | _ => none

/-- The holder of the lock moves the temporary file. -/
def move? (archive : Archive) (fails : Bool) : Option Archive :=
  match archive.holder with
  | some ⟨call, races, found, next, .moving⟩ =>
    let holder : Holder := ⟨call, races, found, next, .moving⟩
    let path := racesPath archive.store.root
    if fails then some (archive.release holder archive.store (.error (.io path)))
    else
      match archive.store.moveTemporary with
      | .error failure => some (archive.release holder archive.store (.error failure))
      | .ok moved =>
        some { archive with store := moved, holder := some { holder with phase := .storing } }
  | _ => none

/-- The holder of the lock stores the index. -/
def store? (archive : Archive) : Option Archive :=
  match archive.holder with
  | some ⟨call, races, found, next, .storing⟩ =>
    let left : DirectoryStore := { archive.store with index := next }
    some { archive.release ⟨call, races, found, next, .storing⟩ left (.ok ()) with
      stored := archive.stored ++ [races] }
  | _ => none

/-- Takes an action; `none` when it is not possible. -/
def step? (archive : Archive) : ArchiveAction → Option Archive
  | .arrive races => some { archive with calls := archive.calls ++ [⟨races, .waiting⟩] }
  | .lock n => archive.lock? n
  | .write fault => archive.write? fault
  | .move fails => archive.move? fails
  | .store => archive.store?
  | .insert race samples => some { archive with store := (archive.store.insert race samples).2 }

/-- Takes an action, if it is possible. -/
def step (archive : Archive) (action : ArchiveAction) : Archive :=
  (archive.step? action).getD archive

/-- Takes actions, one after the other. -/
def run (actions : List ArchiveAction) (archive : Archive) : Archive := actions.foldl step archive

/-! ## What a step does -/

/-- What one action does. -/
inductive Move (archive : Archive) : ArchiveAction → Archive → Prop where
  | arrives (races : List Race) :
      Move archive (.arrive races) { archive with calls := archive.calls ++ [⟨races, .waiting⟩] }
  | locks (n : Nat) (races : List Race) (hfree : archive.holder = none)
      (hwaiting : archive.calls[n]? = some ⟨races, .waiting⟩) :
      Move archive (.lock n) { archive with
        calls := archive.calls.set n ⟨races, .holding⟩
        holder := some ⟨n, races, archive.store, archive.store.index.putAll races, .writing⟩ }
  | writes (holder : Holder) (written : DirectoryStore) (hheld : archive.holder = some holder)
      (hphase : holder.phase = .writing)
      (hdone : archive.store.writeTemporary holder.next = .ok written) :
      Move archive (.write none)
        { archive with store := written, holder := some { holder with phase := .moving } }
  | fails (action : ArchiveAction) (holder : Holder) (left : DirectoryStore) (failure : StorageError)
      (hheld : archive.holder = some holder) (hphase : holder.phase ≠ .storing)
      (hupdate : action.isUpdate = true)
      (hrest : left = archive.store ∨ ∃ fault, left = archive.store.afterFault fault) :
      Move archive action (archive.release holder left (.error failure))
  | moves (holder : Holder) (moved : DirectoryStore) (hheld : archive.holder = some holder)
      (hphase : holder.phase = .moving) (hdone : archive.store.moveTemporary = .ok moved) :
      Move archive (.move false)
        { archive with store := moved, holder := some { holder with phase := .storing } }
  | stores (holder : Holder) (hheld : archive.holder = some holder)
      (hphase : holder.phase = .storing) :
      Move archive .store
        { archive.release holder { archive.store with index := holder.next } (.ok ()) with
          stored := archive.stored ++ [holder.races] }
  | inserts (race : Race) (samples : List Recorded) :
      Move archive (.insert race samples)
        { archive with store := (archive.store.insert race samples).2 }

theorem move_of_step? {archive after : Archive} {action : ArchiveAction}
    (htaken : archive.step? action = some after) : archive.Move action after := by
  cases action with
  | arrive races =>
      cases htaken
      exact .arrives races
  | lock n =>
      simp only [step?, lock?] at htaken
      split at htaken
      · rename_i hfree hwaiting
        cases htaken
        exact .locks n _ hfree hwaiting
      · cases htaken
  | write fault =>
      simp only [step?, write?] at htaken
      split at htaken
      · rename_i hheld
        split at htaken
        · cases htaken
          exact .fails _ _ _ _ hheld (by simp) rfl (.inr ⟨_, rfl⟩)
        · split at htaken
          · cases htaken
            exact .fails _ _ _ _ hheld (by simp) rfl (.inl rfl)
          · rename_i hdone
            cases htaken
            exact .writes _ _ hheld rfl hdone
      · cases htaken
  | move fails =>
      simp only [step?, move?] at htaken
      split at htaken
      · rename_i hheld
        split at htaken
        · cases htaken
          exact .fails _ _ _ _ hheld (by simp) rfl (.inl rfl)
        · rename_i hfine
          cases (Bool.not_eq_true _).mp hfine
          split at htaken
          · cases htaken
            exact .fails _ _ _ _ hheld (by simp) rfl (.inl rfl)
          · rename_i hdone
            cases htaken
            exact .moves _ _ hheld rfl hdone
      · cases htaken
  | store =>
      simp only [step?, store?] at htaken
      split at htaken
      · rename_i hheld
        cases htaken
        exact .stores _ hheld rfl
      · cases htaken
  | insert race samples =>
      cases htaken
      exact .inserts race samples

/-- A property that every move keeps holds after a run. -/
theorem run_induction {holds : Archive → Prop} {archive : Archive} (hstart : holds archive)
    (hstep : ∀ {before after action}, holds before → before.Move action after → holds after)
    (actions : List ArchiveAction) : holds (archive.run actions) := by
  induction actions generalizing archive with
  | nil => exact hstart
  | cons action actions ih =>
      apply ih
      rw [Archive.step]
      cases htaken : archive.step? action with
      | none => exact hstart
      | some after => exact hstep hstart (move_of_step? htaken)

/-! ## A call that is not interrupted -/

/-- **A call that is not interrupted** does what `DirectoryStore.upsert` does. -/
theorem run_update {archive : Archive} (hfree : archive.holder = none) (races : List Race) :
    archive.run [.arrive races, .lock archive.calls.length, .write none, .move false, .store] =
      { archive with
        store := (archive.store.upsert races).2
        calls := archive.calls ++ [⟨races, .returned archive.store (archive.store.upsert races).2
          (archive.store.upsert races).1⟩]
        stored :=
          match (archive.store.upsert races).1 with
          | .ok () => archive.stored ++ [races]
          | .error _ => archive.stored } := by
  obtain ⟨store, calls, holder, stored⟩ := archive
  cases hfree
  let holder (phase : UpdatePhase) : Holder :=
    ⟨calls.length, races, store, store.index.putAll races, phase⟩
  let locked : Archive := ⟨store, calls ++ [⟨races, .holding⟩], some (holder .writing), stored⟩
  have hfirst : run [.arrive races, .lock calls.length] ⟨store, calls, none, stored⟩ = locked := by
    simp [run, step, step?, lock?, locked, holder]
  have hwhole : run [.arrive races, .lock calls.length, .write none, .move false, .store]
      ⟨store, calls, none, stored⟩ = run [.write none, .move false, .store] locked := by
    rw [← hfirst]
    rfl
  rw [hwhole]
  cases hwrote : store.writeTemporary (store.index.putAll races) with
  | error failure =>
      simp [run, step, step?, write?, move?, store?, release, locked, holder, hwrote, upsert]
  | ok written =>
      cases hmoved : written.moveTemporary with
      | error failure =>
          simp [run, step, step?, write?, move?, store?, release, locked, holder, hwrote,
            hmoved, upsert, publish_eq, Except.map]
      | ok moved =>
          simp [run, step, step?, write?, move?, store?, release, locked, holder, hwrote,
            hmoved, upsert, publish_eq, Except.map]

end Archive

end RaceIngest
