import RaceIngest.Proofs.Registry.Moves

/-!
# The accounts of tasks

The dangerous moment is the end of a session. A caller may know its task from before it left the
table and still queue a sample, while the task closes the queue and adds what is left, and while a
second session for the same endpoint is already open. What makes up for that is the order in which
a task does things: it closes its queue before it takes the last sample out, and it closes the
session only when the closed queue is empty.

The invariant `Task.Accounted` compares a task with its two histories, the operations it began and
the samples that were queued for it. It is stated for one task, whatever the others do, because
queues are not shared: every change of a task keeps it, and so does every move of the traffic.

## Main results

* `Task.Change.accounted`: one change keeps the account of a task.
* `Traffic.Accounted.move`: one move keeps the accounts of all tasks.
-/

namespace RaceIngest

/-! ## The account of a task -/

/-- The sample that an operation adds, if it adds one. -/
def Operation.added? : Operation → Option Sample
  | .add sample => some sample
  | .checkpoint | .close => none

/-- The samples that operations add. -/
def addedSamples (operations : List Operation) : List Sample :=
  operations.filterMap Operation.added?

theorem addedSamples_append (first second : List Operation) :
    addedSamples (first ++ second) = addedSamples first ++ addedSamples second :=
  List.filterMap_append

theorem addedSamples_concat_of_none (operations : List Operation) {operation : Operation}
    (hnone : operation.added? = none) :
    addedSamples (operations ++ [operation]) = addedSamples operations := by
  simp [addedSamples, hnone]

/-- Whether a task in a stage has closed its queue. -/
def Stage.isSealed : Stage → Bool
  | .draining | .busy .draining _ _ | .busy .closing _ _ | .ended | .dead => true
  | _ => false

/-- Whether a task in a stage has begun to close its session. -/
def Stage.isClosing : Stage → Bool
  | .busy .closing _ _ | .ended => true
  | _ => false

theorem Stage.isSealed_of_isClosing {stage : Stage} (h : stage.isClosing = true) :
    stage.isSealed = true := by
  unfold isClosing at h
  split at h
  · rfl
  · rfl
  · cases h

/-- What was queued for a task is what it added and what is still queued, in this order. The queue
takes samples until it is closed, and the session is closed last, when nothing is queued. -/
structure Task.Accounted (interval : Duration) (capacity : Nat) (performed : List Operation)
    (posted : List Sample) (task : Task) : Prop where
  capacity_eq : task.queue.capacity = capacity
  length_le : task.queue.samples.length ≤ capacity
  samples_eq : task.stage ≠ .dead → addedSamples performed ++ task.queue.samples = posted
  isOpen_eq : task.queue.isOpen = !task.stage.isSealed
  impossible : task.stage = .dead → isPossibleInterval interval = false
  closes_last : task.stage.isClosing = true →
    task.queue.samples = [] ∧ ∃ earlier, performed = earlier ++ [.close] ∧ .close ∉ earlier
  not_closed : task.stage.isClosing = false → .close ∉ performed

/-- A list in which an entry comes last and only there can be split at it in one way. -/
theorem eq_of_append_cons_eq_concat {α : Type} {earlier later entries : List α} {entry : α}
    (h : earlier ++ entry :: later = entries ++ [entry]) (hentry : entry ∉ entries) :
    earlier = entries ∧ later = [] := by
  rcases List.eq_nil_or_concat later with rfl | ⟨rest, last, rfl⟩
  · exact ⟨(List.append_inj' h rfl).1, rfl⟩
  · have hrest : (earlier ++ entry :: rest) ++ [last] = entries ++ [entry] := by
      rw [← h, List.concat_eq_append, List.append_assoc]
      rfl
    have hmem : entry ∈ earlier ++ entry :: rest := by simp
    rw [(List.append_inj' hrest rfl).1] at hmem
    exact absurd hmem hentry

namespace Task

variable {interval : Duration} {capacity : Nat} {performed : List Operation}
  {posted : List Sample} {task : Task}

/-- A task that closed its session has begun to close it. -/
theorem Accounted.isClosing_of_mem (h : task.Accounted interval capacity performed posted)
    (hclose : .close ∈ performed) : task.stage.isClosing = true := by
  cases hclosing : task.stage.isClosing with
  | true => rfl
  | false => exact absurd hclose (h.not_closed hclosing)

/-- A change that leaves the queue alone and neither kills the task nor closes anything. -/
theorem Accounted.keep (h : task.Accounted interval capacity performed posted) {after : Task}
    (hqueue : after.queue = task.queue)
    (hsealed : after.stage.isSealed = task.stage.isSealed)
    (hclosing : after.stage.isClosing = task.stage.isClosing)
    (hdead : after.stage = .dead ↔ task.stage = .dead) :
    after.Accounted interval capacity performed posted where
  capacity_eq := by rw [hqueue]; exact h.capacity_eq
  length_le := by rw [hqueue]; exact h.length_le
  samples_eq := by
    intro halive
    rw [hqueue]
    exact h.samples_eq fun hstage => halive (hdead.mpr hstage)
  isOpen_eq := by rw [hqueue, hsealed]; exact h.isOpen_eq
  impossible := fun hstage => h.impossible (hdead.mp hstage)
  closes_last := by rw [hqueue, hclosing]; exact h.closes_last
  not_closed := by rw [hclosing]; exact h.not_closed

/-- Taking the first sample out of the queue and adding it. -/
theorem Accounted.add (h : task.Accounted interval capacity performed posted) {after : Task}
    {sample : Sample} {samples : List Sample} (hsamples : task.queue.samples = sample :: samples)
    (hqueue : after.queue = { task.queue with samples })
    (halive : task.stage ≠ .dead) (halive' : after.stage ≠ .dead)
    (hsealed : after.stage.isSealed = task.stage.isSealed)
    (hopen : task.stage.isClosing = false) (hopen' : after.stage.isClosing = false) :
    after.Accounted interval capacity (performed ++ [.add sample]) posted where
  capacity_eq := by rw [hqueue]; exact h.capacity_eq
  length_le := by
    have hle := h.length_le
    rw [hsamples, List.length_cons] at hle
    rw [hqueue]
    exact Nat.le_of_succ_le hle
  samples_eq := by
    intro _
    have hposted := h.samples_eq halive
    rw [hsamples] at hposted
    rw [addedSamples_append, hqueue, List.append_assoc]
    exact hposted
  isOpen_eq := by rw [hqueue, hsealed]; exact h.isOpen_eq
  impossible := fun hstage => absurd hstage halive'
  closes_last := by simp [hopen']
  not_closed := by
    intro _ hclose
    rcases List.mem_append.mp hclose with hold | hnew
    · exact h.not_closed hopen hold
    · simp at hnew

theorem Turn.accounted {step : TaskStep} {operation : Option Operation} {after : Task}
    (hturn : task.Turn interval step operation after)
    (h : task.Accounted interval capacity performed posted) :
    after.Accounted interval capacity (performed ++ operation.toList) posted := by
  cases hturn with
  | starts due hstage =>
      rw [Option.toList_none, List.append_nil]
      exact h.keep rfl (by rw [hstage]; rfl) (by rw [hstage]; rfl) (by rw [hstage]; simp)
  | dies hstage himpossible =>
      rw [Option.toList_none, List.append_nil]
      exact
        { capacity_eq := h.capacity_eq
          length_le := Nat.zero_le _
          samples_eq := fun halive => absurd rfl halive
          isOpen_eq := rfl
          impossible := fun _ => himpossible
          closes_last := by simp [Stage.isClosing]
          not_closed := fun _ => h.not_closed (by rw [hstage]; rfl) }
  | leaves due hstage | idles due hstage | unregisters hstage =>
      rw [Option.toList_none, List.append_nil]
      exact h.keep rfl (by rw [hstage]; rfl) (by rw [hstage]; rfl) (by rw [hstage]; simp)
  | receives due sample samples hstage hsamples =>
      exact h.add hsamples rfl (by rw [hstage]; simp) (by simp) (by rw [hstage]; rfl)
        (by rw [hstage]; rfl) rfl
  | flushes due next hstage =>
      rw [Option.toList_some]
      have hopen : task.stage.isClosing = false := by rw [hstage]; rfl
      refine
        { capacity_eq := h.capacity_eq
          length_le := h.length_le
          samples_eq := ?_
          isOpen_eq := h.isOpen_eq.trans (by rw [hstage]; rfl)
          impossible := by simp
          closes_last := by simp [Stage.isClosing]
          not_closed := ?_ }
      · intro _
        rw [addedSamples_concat_of_none performed rfl]
        exact h.samples_eq (by rw [hstage]; simp)
      · intro _ hclose
        simpa using (List.mem_append.mp hclose).resolve_left (h.not_closed hopen)
  | closesQueue hstage =>
      rw [Option.toList_none, List.append_nil]
      exact
        { capacity_eq := h.capacity_eq
          length_le := h.length_le
          samples_eq := fun _ => h.samples_eq (by rw [hstage]; simp)
          isOpen_eq := rfl
          impossible := by simp
          closes_last := by simp [Stage.isClosing]
          not_closed := fun _ => h.not_closed (by rw [hstage]; rfl) }
  | drains sample samples hstage hsamples =>
      exact h.add hsamples rfl (by rw [hstage]; simp) (by simp) (by rw [hstage]; rfl)
        (by rw [hstage]; rfl) rfl
  | concludes hstage hempty =>
      rw [Option.toList_some]
      have hopen : task.stage.isClosing = false := by rw [hstage]; rfl
      refine
        { capacity_eq := h.capacity_eq
          length_le := h.length_le
          samples_eq := ?_
          isOpen_eq := h.isOpen_eq.trans (by rw [hstage]; rfl)
          impossible := by simp
          closes_last := fun _ => ⟨hempty, performed, rfl, h.not_closed hopen⟩
          not_closed := by simp [Stage.isClosing] }
      intro _
      rw [addedSamples_concat_of_none performed rfl]
      exact h.samples_eq (by rw [hstage]; simp)
  | calls work request next fails hstage =>
      rw [Option.toList_none, List.append_nil]
      exact h.keep rfl (by rw [hstage]; cases work <;> rfl) (by rw [hstage]; cases work <;> rfl)
        (by rw [hstage]; simp)
  | completes work request next fails reply hstage =>
      rw [Option.toList_none, List.append_nil]
      exact h.keep rfl (by rw [hstage]; cases work <;> rfl) (by rw [hstage]; cases work <;> rfl)
        (by rw [hstage]; simp)
  | settles work session hstage =>
      rw [Option.toList_none, List.append_nil]
      exact h.keep rfl (by rw [hstage]; cases work <;> rfl) (by rw [hstage]; cases work <;> rfl)
        (by rw [hstage]; cases work <;> simp [stageAfter])

/-- Every change of a task keeps its account. -/
theorem Change.accounted {operations : List Operation} {samples : List Sample} {after : Task}
    (hchange : task.Change interval operations samples after)
    (h : task.Accounted interval capacity performed posted) :
    after.Accounted interval capacity (performed ++ operations) (posted ++ samples) := by
  cases hchange with
  | turns step operation _ hturn =>
      rw [List.append_nil]
      exact hturn.accounted h
  | spawns hstage =>
      rw [List.append_nil, List.append_nil]
      exact h.keep rfl (by rw [hstage]; rfl) (by rw [hstage]; rfl) (by rw [hstage]; simp)
  | cancels =>
      rw [List.append_nil, List.append_nil]
      exact h.keep rfl rfl rfl Iff.rfl
  | queues sample hopen hroom =>
      -- an open queue belongs to a task that has not begun to close
      have hunsealed : task.stage.isSealed = false := by
        simpa [hopen] using h.isOpen_eq
      have halive : task.stage ≠ .dead := by
        intro hdead
        simp [hdead, Stage.isSealed] at hunsealed
      rw [List.append_nil]
      refine
        { capacity_eq := h.capacity_eq
          length_le := ?_
          samples_eq := ?_
          isOpen_eq := h.isOpen_eq
          impossible := h.impossible
          closes_last := ?_
          not_closed := h.not_closed }
      · rw [h.capacity_eq] at hroom
        rw [List.length_append]
        exact hroom
      · intro _
        rw [← h.samples_eq halive, List.append_assoc]
      · intro hclosing
        rw [Stage.isSealed_of_isClosing hclosing] at hunsealed
        cases hunsealed

theorem accounted_newTask (interval : Duration) (registry : Registry) (endpoint : String)
    (sessionId : Uuid) :
    (registry.newTask endpoint sessionId).Accounted interval registry.queueCapacity [] [] where
  capacity_eq := rfl
  length_le := Nat.zero_le _
  samples_eq := fun _ => rfl
  isOpen_eq := rfl
  impossible := by simp [Registry.newTask]
  closes_last := by simp [Registry.newTask, Stage.isClosing]
  not_closed := fun _ => List.not_mem_nil

end Task

/-! ## The account of all tasks -/

namespace Traffic

variable {σ : Type}

/-- The operations that a task began on its session, oldest first. -/
def performed (traffic : Traffic σ) (id : TaskId) : List Operation :=
  traffic.begun.filterMap fun (owner, operation) => if owner = id then some operation else none

/-- The samples that were queued for a task, oldest first. -/
def postedTo (traffic : Traffic σ) (id : TaskId) : List Sample :=
  traffic.posted.filterMap fun posted => if posted.task = id then some posted.sample else none

/-- The account of every task is right, and the histories are about tasks that exist. -/
structure Accounted (traffic : Traffic σ) : Prop where
  task_accounted : ∀ id task, traffic.registry.task? id = some task →
    task.Accounted traffic.registry.interval traffic.registry.queueCapacity
      (traffic.performed id) (traffic.postedTo id)
  begun_lt : ∀ entry ∈ traffic.begun, entry.1 < traffic.registry.tasks.length
  posted_lt : ∀ posted ∈ traffic.posted, posted.task < traffic.registry.tasks.length

theorem Accounted.performed_eq_nil {traffic : Traffic σ} (h : traffic.Accounted) {id : TaskId}
    (hid : traffic.registry.tasks.length ≤ id) : traffic.performed id = [] := by
  refine List.filterMap_eq_nil_iff.mpr fun entry hentry => if_neg ?_
  exact Nat.ne_of_lt (Nat.lt_of_lt_of_le (h.begun_lt entry hentry) hid)

theorem Accounted.postedTo_eq_nil {traffic : Traffic σ} (h : traffic.Accounted) {id : TaskId}
    (hid : traffic.registry.tasks.length ≤ id) : traffic.postedTo id = [] := by
  refine List.filterMap_eq_nil_iff.mpr fun posted hposted => if_neg ?_
  exact Nat.ne_of_lt (Nat.lt_of_lt_of_le (h.posted_lt posted hposted) hid)

/-- With a possible interval no task dies. -/
theorem Accounted.alive {traffic : Traffic σ} (h : traffic.Accounted)
    (hpossible : isPossibleInterval traffic.registry.interval = true) {id : TaskId} {task : Task}
    (htask : traffic.registry.task? id = some task) : task.stage ≠ .dead := by
  intro hdead
  have himpossible := (h.task_accounted id task htask).impossible hdead
  rw [hpossible] at himpossible
  cases himpossible

/-- Of entries that all bear one mark, either all are selected or none. -/
theorem filterMap_of_marked {α β : Type} {enter : α → β} {select : β → Option α} {marked : Prop}
    [Decidable marked] (h : ∀ a, select (enter a) = if marked then some a else none) (l : List α) :
    (l.map enter).filterMap select = if marked then l else [] := by
  have hselect : select ∘ enter = fun a => if marked then some a else none := funext h
  rw [List.filterMap_map, hselect]
  split
  · exact List.filterMap_some
  · exact List.filterMap_eq_nil_iff.mpr fun _ _ => rfl

theorem performed_append {before after : Traffic σ} {id : TaskId} {operations : List Operation}
    (h : after.begun = before.begun ++ operations.map (id, ·)) (other : TaskId) :
    after.performed other =
      before.performed other ++ if id = other then operations else [] := by
  unfold performed
  rw [h, List.filterMap_append]
  refine congrArg _ (filterMap_of_marked ?_ _)
  exact fun _ => rfl

theorem postedTo_append {before after : Traffic σ} {n : Nat} {id : TaskId} {samples : List Sample}
    (h : after.posted = before.posted ++ samples.map (⟨n, id, ·⟩)) (other : TaskId) :
    after.postedTo other = before.postedTo other ++ if id = other then samples else [] := by
  unfold postedTo
  rw [h, List.filterMap_append]
  refine congrArg _ (filterMap_of_marked ?_ _)
  exact fun _ => rfl

theorem performed_eq {before after : Traffic σ} (h : after.begun = before.begun) :
    after.performed = before.performed := by
  funext id
  rw [performed, h, performed]

theorem postedTo_eq {before after : Traffic σ} (h : after.posted = before.posted) :
    after.postedTo = before.postedTo := by
  funext id
  rw [postedTo, h, postedTo]

/-- Every move keeps the account of all tasks. -/
theorem Accounted.move {shards : Shards} {traffic after : Traffic σ} {action : Action}
    (h : traffic.Accounted) (hmove : traffic.Move shards action after) : after.Accounted := by
  obtain ⟨hinterval, hcapacity, -⟩ := hmove.settings_eq
  cases hmove.tasksMove with
  | rests htasks hbegun hposted =>
      refine ⟨?_, ?_, ?_⟩
      · intro id task htask
        rw [hinterval, hcapacity, performed_eq hbegun, postedTo_eq hposted]
        rw [Registry.task?, htasks] at htask
        exact h.task_accounted id task htask
      · rw [hbegun, htasks]
        exact h.begun_lt
      · rw [hposted, htasks]
        exact h.posted_lt
  | opens endpoint sessionId htasks hbegun hposted =>
      have hlength : traffic.registry.tasks.length < after.registry.tasks.length := by
        rw [htasks, List.length_append]
        exact Nat.lt_succ_self _
      refine ⟨?_, ?_, ?_⟩
      · intro id task htask
        rw [hinterval, hcapacity, performed_eq hbegun, postedTo_eq hposted]
        rw [Registry.task?, htasks] at htask
        rcases getElem?_concat_cases htask with hold | ⟨rfl, rfl⟩
        · exact h.task_accounted id task hold
        · rw [h.performed_eq_nil (Nat.le_refl _), h.postedTo_eq_nil (Nat.le_refl _)]
          exact Task.accounted_newTask _ _ _ _
      · rw [hbegun]
        exact fun entry hentry => Nat.lt_trans (h.begun_lt entry hentry) hlength
      · rw [hposted]
        exact fun posted hmem => Nat.lt_trans (h.posted_lt posted hmem) hlength
  | changes n id task task' operations samples htask hchange htasks hbegun hposted =>
      have hlt : id < traffic.registry.tasks.length :=
        (List.getElem?_eq_some_iff.mp htask).1
      have hlength : after.registry.tasks.length = traffic.registry.tasks.length := by
        rw [htasks, List.length_set]
      refine ⟨?_, ?_, ?_⟩
      · intro other otherTask hother
        rw [hinterval, hcapacity, performed_append hbegun, postedTo_append hposted]
        rw [Registry.task?, htasks, List.getElem?_set] at hother
        by_cases hid : id = other
        · rw [if_pos hid, if_pos hlt, Option.some.injEq] at hother
          rw [if_pos hid, if_pos hid, ← hother, ← hid]
          exact hchange.accounted (h.task_accounted id task htask)
        · rw [if_neg hid] at hother
          rw [if_neg hid, if_neg hid, List.append_nil, List.append_nil]
          exact h.task_accounted other otherTask hother
      · rw [hbegun, hlength]
        intro entry hentry
        rcases List.mem_append.mp hentry with hold | hnew
        · exact h.begun_lt entry hold
        · obtain ⟨operation, -, rfl⟩ := List.mem_map.mp hnew
          exact hlt
      · rw [hposted, hlength]
        intro posted hmem
        rcases List.mem_append.mp hmem with hold | hnew
        · exact h.posted_lt posted hold
        · obtain ⟨sample, -, rfl⟩ := List.mem_map.mp hnew
          exact hlt

theorem accounted_fresh (config : ServerConfig) (world : World σ) (sessionIds : Nat → Uuid) :
    (fresh config world sessionIds).Accounted where
  task_accounted := by simp [fresh, Registry.task?, Registry.ofConfig]
  begun_lt := by simp [fresh]
  posted_lt := by simp [fresh]

end Traffic

end RaceIngest
