import RaceIngest.Proofs.Registry.Moves

/-!
# The share of one endpoint in a registry

What is left of a registry when only one endpoint is looked at is again a registry: it has the same
settings, the tasks of the endpoint, and the places of the table that are its own. Tasks are
numbered in the order in which they were opened, so a task has another number there, its rank among
the tasks of its endpoint.

Every change of a registry either is for the endpoint, and then it is the same change of the share,
at the ranks of the tasks that it names, or it leaves the share as it is.

## Main definitions

* `rankOf`, how many of the first entries of a list are of a kind,
* `Registry.rank`, `Registry.share`.

## Main statements

* `Registry.share_setTask`, `Registry.share_opened`: what the two changes that everything else is
  made of do to the share,
* `Registry.share_send`, `Registry.share_cancel`, `Registry.share_unregister?` and their kind.
-/

namespace RaceIngest

/-! ## Ranks -/

section Ranks

variable {α : Type} (p : α → Bool)

/-- How many of the first `i` entries are of a kind: the place of the next one among its kind. -/
def rankOf (entries : List α) (i : Nat) : Nat := (entries.take i).countP p

variable {p} {entries : List α} {i j : Nat} {a b : α}

theorem rankOf_append (hbound : i ≤ entries.length) (more : List α) :
    rankOf p (entries ++ more) i = rankOf p entries i := by
  rw [rankOf, List.take_append_of_le_length hbound, rankOf]

theorem rankOf_length (entries : List α) :
    rankOf p entries entries.length = (entries.filter p).length := by
  rw [rankOf, List.take_length, List.countP_eq_length_filter]

/-- Ranks depend on the kinds of the entries only. -/
theorem rankOf_eq_of_map {β : Type} {q : β → Bool} {others : List β}
    (hkinds : entries.map p = others.map q) (i : Nat) : rankOf p entries i = rankOf q others i := by
  have hcounted {γ : Type} (r : γ → Bool) (list : List γ) :
      rankOf r list i = ((list.map r).take i).countP id := by
    rw [rankOf, ← List.map_take, List.countP_map]
    rfl
  rw [hcounted p, hcounted q, hkinds]

/-- Replacing an entry by one that maps alike changes nothing about what the entries map to. -/
theorem map_set_of_eq {β : Type} {f : α → β} (hfound : entries[i]? = some a) (hsame : f b = f a) :
    (entries.set i b).map f = entries.map f := by
  obtain ⟨hbound, rfl⟩ := List.getElem?_eq_some_iff.mp hfound
  rw [List.map_set, hsame, ← List.getElem_map f (h := by simpa using hbound), List.set_getElem_self]

theorem rankOf_set (hfound : entries[i]? = some a) (hsame : p b = p a) (j : Nat) :
    rankOf p (entries.set i b) j = rankOf p entries j :=
  rankOf_eq_of_map (map_set_of_eq hfound hsame) j

/-- An entry of a kind is found among its kind at its rank. -/
theorem getElem?_filter_rankOf (hfound : entries[i]? = some a) (hkind : p a = true) :
    (entries.filter p)[rankOf p entries i]? = some a := by
  induction entries generalizing i with
  | nil => cases hfound
  | cons entry entries ih =>
      cases i with
      | zero =>
          have hsame : entry = a := by simpa using hfound
          simp [rankOf, hsame, hkind]
      | succ i =>
          have hrest := ih (i := i) (by simpa using hfound)
          unfold rankOf at hrest ⊢
          by_cases hfirst : p entry = true
          · simp [hfirst, hrest]
          · simp [hfirst, hrest]

theorem filter_set_of_pos (hfound : entries[i]? = some a) (hold : p a = true) (hnew : p b = true) :
    (entries.set i b).filter p = (entries.filter p).set (rankOf p entries i) b := by
  induction entries generalizing i with
  | nil => cases hfound
  | cons entry entries ih =>
      cases i with
      | zero =>
          have hsame : entry = a := by simpa using hfound
          simp [rankOf, hsame, hold, hnew]
      | succ i =>
          have hrest := ih (i := i) (by simpa using hfound)
          unfold rankOf at hrest ⊢
          by_cases hfirst : p entry = true
          · simp [hfirst, hrest]
          · simp [hfirst, hrest]

theorem filter_set_of_neg (hfound : entries[i]? = some a) (hold : p a = false)
    (hnew : p b = false) : (entries.set i b).filter p = entries.filter p := by
  induction entries generalizing i with
  | nil => cases hfound
  | cons entry entries ih =>
      cases i with
      | zero =>
          have hsame : entry = a := by simpa using hfound
          simp [hsame, hold, hnew]
      | succ i =>
          have hrest := ih (i := i) (by simpa using hfound)
          by_cases hfirst : p entry = true
          · simp [hfirst, hrest]
          · simp [hfirst, hrest]

theorem rankOf_lt (hfound : entries[i]? = some a) (hkind : p a = true) (hbefore : i < j) :
    rankOf p entries i < rankOf p entries j := by
  induction entries generalizing i j with
  | nil => cases hfound
  | cons entry entries ih =>
      cases j with
      | zero => cases hbefore
      | succ j =>
          cases i with
          | zero =>
              have hsame : entry = a := by simpa using hfound
              simp [rankOf, hsame, hkind]
          | succ i =>
              have hrest := ih (i := i) (j := j) (by simpa using hfound) (by omega)
              unfold rankOf at hrest ⊢
              by_cases hfirst : p entry = true
              · simp [hfirst, hrest]
              · simp [hfirst, hrest]

/-- Entries of a kind with the same rank are the same. -/
theorem eq_of_rankOf_eq (hfirst : entries[i]? = some a) (hsecond : entries[j]? = some b)
    (hkind : p a = true) (hother : p b = true) (hsame : rankOf p entries i = rankOf p entries j) :
    i = j := by
  rcases Nat.lt_trichotomy i j with hbefore | hequal | hafter
  · exact absurd hsame (Nat.ne_of_lt (rankOf_lt hfirst hkind hbefore))
  · exact hequal
  · exact absurd hsame.symm (Nat.ne_of_lt (rankOf_lt hsecond hother hafter))

end Ranks

/-! ## Shares -/

/-- A task that is out of its loop gives up its place. -/
def Task.unregister? (task : Task) : Option Task :=
  match task.stage with
  | .leaving => some { task with stage := .unregistered }
  | _ => none

theorem Task.endpoint_of_unregister? (task : Task) {after : Task}
    (hgone : task.unregister? = some after) : after.endpoint = task.endpoint := by
  unfold Task.unregister? at hgone
  split at hgone
  · rw [← Option.some.inj hgone]
  · cases hgone

namespace Registry

/-- The number of a task among the tasks of its endpoint. -/
def rank (registry : Registry) (endpoint : String) (id : TaskId) : TaskId :=
  rankOf (·.endpoint == endpoint) registry.tasks id

/-- What an endpoint has of a registry. -/
def share (registry : Registry) (endpoint : String) : Registry :=
  { registry with
    table := (registry.table.filter (·.1 == endpoint)).map fun (owner, id) =>
      (owner, registry.rank endpoint id)
    tasks := registry.tasks.filter (·.endpoint == endpoint) }

/-- The places of the table are those of tasks for the same endpoint. -/
def Placed (registry : Registry) : Prop :=
  ∀ entry ∈ registry.table, registry.endpointOf? entry.2 = some entry.1

variable {registry : Registry} {endpoint : String} {id : TaskId} {task new : Task}

@[simp] theorem share_refuse :
    registry.refuse.share endpoint = (registry.share endpoint).refuse := rfl

@[simp] theorem share_await :
    registry.await.share endpoint = (registry.share endpoint).await := rfl

@[simp] theorem share_reopen :
    registry.reopen.share endpoint = (registry.share endpoint).reopen := rfl

theorem endpointOf?_eq_some_iff :
    registry.endpointOf? id = some endpoint ↔
      ∃ task, registry.task? id = some task ∧ task.endpoint = endpoint :=
  Option.map_eq_some_iff

theorem lt_of_endpointOf? (hknown : registry.endpointOf? id = some endpoint) :
    id < registry.tasks.length := by
  obtain ⟨task, hfound, -⟩ := endpointOf?_eq_some_iff.mp hknown
  exact (List.getElem?_eq_some_iff.mp hfound).1

/-- A task of the endpoint is found in its share. -/
theorem task?_share (hfound : registry.task? id = some task) (hown : task.endpoint = endpoint) :
    (registry.share endpoint).task? (registry.rank endpoint id) = some task :=
  getElem?_filter_rankOf hfound (by simpa using hown)

theorem lookup?_share (registry : Registry) (endpoint : String) :
    (registry.share endpoint).lookup? endpoint =
      (registry.lookup? endpoint).map (registry.rank endpoint) := by
  have hplaces (table : List (String × TaskId)) (number : TaskId → TaskId) :
      ((table.filter (·.1 == endpoint)).map fun (owner, id) => (owner, number id)).lookup endpoint =
        (table.lookup endpoint).map number := by
    induction table with
    | nil => rfl
    | cons entry table ih =>
        obtain ⟨owner, id⟩ := entry
        by_cases hown : owner = endpoint
        · simp [hown]
        · have hother : (endpoint == owner) = false := by simpa using Ne.symm hown
          simp [hown, List.lookup_cons, hother, ih]
  exact hplaces registry.table (registry.rank endpoint)

theorem isFatal_share (registry : Registry) (endpoint : String) :
    (registry.share endpoint).isFatal endpoint = registry.isFatal endpoint := by
  unfold isFatal
  rw [lookup?_share, Option.isNone_map]
  rfl

/-- When all sessions are over, those of an endpoint are. -/
theorem allEnded_share (hended : registry.allEnded = true) :
    (registry.share endpoint).allEnded = true := by
  simp only [allEnded, Bool.and_eq_true, beq_iff_eq] at hended ⊢
  have hfewer : (registry.share endpoint).pending ≤ registry.pending :=
    List.filter_sublist.countP_le
  exact ⟨hended.1, by omega⟩

/-! ## Changes of one task -/

theorem rank_setTask (hfound : registry.task? id = some task) (hsame : new.endpoint = task.endpoint)
    (other : TaskId) :
    (registry.setTask id new).rank endpoint other = registry.rank endpoint other :=
  rankOf_set hfound (by simp [hsame]) other

/-- Changing a task of the endpoint changes its share likewise. -/
theorem share_setTask (hfound : registry.task? id = some task) (hown : task.endpoint = endpoint)
    (hsame : new.endpoint = task.endpoint) :
    (registry.setTask id new).share endpoint =
      (registry.share endpoint).setTask (registry.rank endpoint id) new := by
  have hranks : (registry.setTask id new).rank endpoint = registry.rank endpoint :=
    funext (rank_setTask hfound hsame)
  have htasks := filter_set_of_pos (p := (·.endpoint == endpoint)) (b := new) hfound
    (by simpa using hown) (by simpa [hsame] using hown)
  unfold share
  rw [hranks]
  unfold setTask rank
  rw [htasks]

/-- Changing a task of another endpoint leaves the share. -/
theorem share_setTask_of_ne (hfound : registry.task? id = some task)
    (hforeign : registry.endpointOf? id ≠ some endpoint) (hsame : new.endpoint = task.endpoint) :
    (registry.setTask id new).share endpoint = registry.share endpoint := by
  have hother : task.endpoint ≠ endpoint := fun hown =>
    hforeign (endpointOf?_eq_some_iff.mpr ⟨task, hfound, hown⟩)
  have hranks : (registry.setTask id new).rank endpoint = registry.rank endpoint :=
    funext (rank_setTask hfound hsame)
  have htasks := filter_set_of_neg (p := (·.endpoint == endpoint)) (b := new) hfound
    (by simpa using hother) (by simpa [hsame] using hother)
  unfold share
  rw [hranks]
  unfold setTask
  rw [htasks]

/-- A step of a task of the endpoint is a step of the share. -/
theorem stepTask?_share {step : Task → Option Task} (hfound : registry.task? id = some task)
    (hown : task.endpoint = endpoint) (hkeeps : ∀ after, step task = some after →
      after.endpoint = task.endpoint) :
    (registry.share endpoint).stepTask? (registry.rank endpoint id) step =
      (registry.stepTask? id step).map (·.share endpoint) := by
  unfold stepTask?
  rw [task?_share hfound hown, hfound, Option.bind_some]
  cases hstepped : step task with
  | none => rfl
  | some after => exact congrArg some (share_setTask hfound hown (hkeeps after hstepped)).symm

/-- A step of another task leaves the share. -/
theorem share_of_stepTask? {step : Task → Option Task} {after : Registry}
    (hstepped : registry.stepTask? id step = some after)
    (hforeign : registry.endpointOf? id ≠ some endpoint)
    (hkeeps : ∀ before after, step before = some after → after.endpoint = before.endpoint) :
    after.share endpoint = registry.share endpoint := by
  obtain ⟨changed, hbound, rfl⟩ := Option.map_eq_some_iff.mp hstepped
  obtain ⟨task, hfound, htaken⟩ := Option.bind_eq_some_iff.mp hbound
  exact share_setTask_of_ne hfound hforeign (hkeeps task changed htaken)

theorem share_spawn (hown : registry.endpointOf? id = some endpoint) :
    (registry.spawn id).share endpoint =
      (registry.share endpoint).spawn (registry.rank endpoint id) := by
  obtain ⟨task, hfound, hown⟩ := endpointOf?_eq_some_iff.mp hown
  have hkeeps : ∀ after, task.spawn? = some after → after.endpoint = task.endpoint := by
    intro after hspawned
    unfold Task.spawn? at hspawned
    split at hspawned
    · rw [← Option.some.inj hspawned]
    · cases hspawned
  unfold spawn
  rw [stepTask?_share hfound hown hkeeps]
  cases registry.stepTask? id Task.spawn? <;> rfl

theorem share_cancel (hown : registry.endpointOf? id = some endpoint) :
    (registry.cancel id).share endpoint =
      (registry.share endpoint).cancel (registry.rank endpoint id) := by
  obtain ⟨task, hfound, hown⟩ := endpointOf?_eq_some_iff.mp hown
  unfold cancel
  rw [stepTask?_share hfound hown fun after hchanged => by rw [← Option.some.inj hchanged]]
  cases registry.stepTask? id fun task => some { task with cancelled := true } <;> rfl

/-- Spawning another task leaves the share. -/
theorem share_spawn_of_ne (hforeign : registry.endpointOf? id ≠ some endpoint) :
    (registry.spawn id).share endpoint = registry.share endpoint := by
  rcases registry.spawn_cases id with hrests | ⟨task, hfound, -, hspawned⟩
  · rw [hrests]
  · rw [hspawned]
    exact share_setTask_of_ne hfound hforeign rfl

/-- Telling another session to close leaves the share. -/
theorem share_cancel_of_ne (hforeign : registry.endpointOf? id ≠ some endpoint) :
    (registry.cancel id).share endpoint = registry.share endpoint := by
  rcases registry.cancel_cases id with hrests | ⟨task, hfound, hcancelled⟩
  · rw [hrests]
  · rw [hcancelled]
    exact share_setTask_of_ne hfound hforeign rfl

/-- Queueing a sample for a task of the endpoint is accepted alike. -/
theorem share_send (hown : registry.endpointOf? id = some endpoint) (sample : Sample) :
    (registry.share endpoint).send (registry.rank endpoint id) sample =
      ((registry.send id sample).1, (registry.send id sample).2.share endpoint) := by
  obtain ⟨task, hfound, hown⟩ := endpointOf?_eq_some_iff.mp hown
  unfold send
  rw [task?_share hfound hown, hfound]
  dsimp only
  obtain ⟨accepted, queue⟩ := task.queue.send sample
  have hchanged : (registry.setTask id { task with queue }).share endpoint = _ :=
    share_setTask hfound hown rfl
  exact congrArg (Prod.mk accepted) hchanged.symm

/-! ## Sessions that are opened and unregistered -/

theorem rank_opened (sessionId : Uuid) {opener : String} {known : TaskId}
    (hbound : known ≤ registry.tasks.length) :
    (registry.opened opener sessionId).rank endpoint known = registry.rank endpoint known :=
  rankOf_append hbound _

/-- The places of the endpoint are the same after a session was opened, apart from its own. -/
theorem places_opened (hplaced : registry.Placed) (sessionId : Uuid) (opener : String) :
    ((registry.table.filter (·.1 == endpoint)).map fun (owner, id) =>
        (owner, (registry.opened opener sessionId).rank endpoint id)) =
      (registry.share endpoint).table := by
  apply List.map_congr_left
  intro entry hmem
  have hbound := lt_of_endpointOf? (hplaced entry (List.mem_filter.mp hmem).1)
  show (entry.1, _) = (entry.1, _)
  rw [rank_opened sessionId (Nat.le_of_lt hbound)]

/-- Opening a session for the endpoint opens one in its share. -/
theorem share_opened (hplaced : registry.Placed) (sessionId : Uuid) :
    (registry.opened endpoint sessionId).share endpoint =
      (registry.share endpoint).opened endpoint sessionId := by
  have hnumber : (registry.opened endpoint sessionId).rank endpoint registry.tasks.length =
      (registry.share endpoint).tasks.length := by
    rw [rank_opened sessionId (Nat.le_refl _)]
    exact rankOf_length registry.tasks
  have htable : ((registry.opened endpoint sessionId).share endpoint).table =
      (registry.share endpoint).table ++ [(endpoint, (registry.share endpoint).tasks.length)] := by
    rw [← hnumber, ← places_opened hplaced sessionId endpoint]
    simp [share, opened]
  have htasks : ((registry.opened endpoint sessionId).share endpoint).tasks =
      (registry.share endpoint).tasks ++ [registry.newTask endpoint sessionId] := by
    simp [share, opened, newTask]
  unfold opened at htable htasks ⊢
  unfold share at htable htasks ⊢
  dsimp only at htable htasks ⊢
  rw [htable, htasks]
  rfl

/-- Opening a session for another endpoint leaves the share. -/
theorem share_opened_of_ne (hplaced : registry.Placed) {opener : String}
    (hforeign : opener ≠ endpoint) (sessionId : Uuid) :
    (registry.opened opener sessionId).share endpoint = registry.share endpoint := by
  have htable : ((registry.opened opener sessionId).share endpoint).table =
      (registry.share endpoint).table := by
    rw [← places_opened hplaced sessionId opener]
    simp [share, opened, hforeign]
  have htasks : ((registry.opened opener sessionId).share endpoint).tasks =
      (registry.share endpoint).tasks := by
    simp [share, opened, newTask, hforeign]
  unfold opened at htable htasks ⊢
  unfold share at htable htasks ⊢
  dsimp only at htable htasks ⊢
  rw [htable, htasks]

/-- The table without the place that a task has for an endpoint. -/
def without (registry : Registry) (endpoint : String) (id : TaskId) : Registry :=
  { registry with
    table := registry.table.filter fun (other, owner) => !(other == endpoint && owner == id) }

/-- A task that gives up its place changes the table and then itself. -/
theorem unregister?_eq (hfound : registry.task? id = some task) :
    registry.unregister? id =
      (registry.without task.endpoint id).stepTask? id Task.unregister? := by
  have hhere : (registry.without task.endpoint id).task? id = some task := hfound
  unfold unregister? stepTask?
  rw [hfound, hhere, Option.bind_some]
  unfold Task.unregister?
  dsimp only
  cases task.stage <;> rfl

/-- Without a place of the endpoint, its share is without that place. -/
theorem share_without (hplaced : registry.Placed) (hown : registry.endpointOf? id = some endpoint) :
    (registry.without endpoint id).share endpoint =
      (registry.share endpoint).without endpoint (registry.rank endpoint id) := by
  have hsame : ∀ entry ∈ registry.table, entry.1 = endpoint →
      (entry.2 == id) = (registry.rank endpoint entry.2 == registry.rank endpoint id) := by
    intro entry hmem hmine
    obtain ⟨first, hfoundFirst, hownFirst⟩ := endpointOf?_eq_some_iff.mp
      (hmine ▸ hplaced entry hmem)
    obtain ⟨second, hfoundSecond, hownSecond⟩ := endpointOf?_eq_some_iff.mp hown
    rw [Bool.eq_iff_iff, beq_iff_eq, beq_iff_eq]
    constructor
    · intro hequal
      rw [hequal]
    · intro hranks
      exact eq_of_rankOf_eq hfoundFirst hfoundSecond (by simpa using hownFirst)
        (by simpa using hownSecond) hranks
  have htable : ((registry.without endpoint id).share endpoint).table =
      ((registry.share endpoint).without endpoint (registry.rank endpoint id)).table := by
    show ((registry.table.filter _).filter _).map _ = ((registry.table.filter _).map _).filter _
    rw [List.filter_map, List.filter_filter, List.filter_filter]
    congr 1
    apply List.filter_congr
    intro entry hmem
    by_cases hmine : entry.1 = endpoint
    · simp [hmine, hsame entry hmem hmine]
    · have hother : (entry.1 == endpoint) = false := by simpa using hmine
      simp [hother]
  unfold share without at htable ⊢
  dsimp only at htable ⊢
  rw [htable]

theorem share_without_of_ne {owner : String} (hforeign : owner ≠ endpoint) :
    (registry.without owner id).share endpoint = registry.share endpoint := by
  have htable : (registry.without owner id).table.filter (·.1 == endpoint) =
      registry.table.filter (·.1 == endpoint) := by
    unfold without
    rw [List.filter_filter]
    apply List.filter_congr
    intro entry _
    by_cases hown : entry.1 = endpoint
    · simp [hown, Ne.symm hforeign]
    · simp [hown]
  unfold share
  rw [htable]
  rfl

/-- A task of the endpoint gives up its place in the share. -/
theorem unregister?_share (hplaced : registry.Placed)
    (hown : registry.endpointOf? id = some endpoint) :
    (registry.share endpoint).unregister? (registry.rank endpoint id) =
      (registry.unregister? id).map (·.share endpoint) := by
  obtain ⟨task, hfound, rfl⟩ := endpointOf?_eq_some_iff.mp hown
  have hhere : (registry.without task.endpoint id).task? id = some task := hfound
  rw [unregister?_eq hfound, unregister?_eq (task?_share hfound rfl), ← share_without hplaced hown]
  exact stepTask?_share hhere rfl fun after => task.endpoint_of_unregister?

/-- Another task that gives up its place leaves the share. -/
theorem share_of_unregister? {after : Registry} (hgone : registry.unregister? id = some after)
    (hforeign : registry.endpointOf? id ≠ some endpoint) :
    after.share endpoint = registry.share endpoint := by
  cases hfound : registry.task? id with
  | none =>
      unfold unregister? at hgone
      rw [hfound] at hgone
      cases hgone
  | some task =>
      have hother : task.endpoint ≠ endpoint := fun hown =>
        hforeign (endpointOf?_eq_some_iff.mpr ⟨task, hfound, hown⟩)
      rw [unregister?_eq hfound] at hgone
      calc after.share endpoint
          = (registry.without task.endpoint id).share endpoint :=
            share_of_stepTask? hgone hforeign fun before _ => before.endpoint_of_unregister?
        _ = registry.share endpoint := share_without_of_ne hother

end Registry

end RaceIngest
