import Mathlib.Data.List.Nodup
import RaceIngest.Proofs.Registry.Waiting
import RaceIngest.Proofs.Session.Belonging

/-!
# Who holds which place of the table

Opening a session puts it into the table, and the task that runs it takes it out again, by itself.
Between the two there may be any number of other callers and tasks, and once a session has left the
table another one may be opened for its endpoint while the first still adds what was queued for it.

The table and the tasks correspond throughout: a session stands in the table under its own endpoint
from the moment it is opened until its task unregisters, whatever else happens. That a task finds
nothing but its own place when it unregisters is a consequence, and so is that callers who meet no
session of an endpoint at the same time open one between them.

Whether a task has unregistered is not looked up in its stage: `Traffic.Unregisters` says so of the
actions of a run, and `Traffic.hasLeft_run_iff` ties the two together.

## Main results

* `Traffic.Move.hasLeft_iff`: only the step that unregisters it lets a task give up its place.
* `Traffic.Tabled.move`: what has not left has the place of its endpoint, and nobody shares it.
* `Traffic.table_corresponds`: the same for whole runs.
-/

namespace RaceIngest

/-! ## Tasks that have left -/

/-- A task has given up its place exactly when it had before or unregisters now. -/
theorem Task.Turn.hasLeft_iff {interval : Duration} {task after : Task} {step : TaskStep}
    {operation : Option Operation} (h : task.Turn interval step operation after) :
    after.stage.hasLeft = true ↔ task.stage.hasLeft = true ∨ step = .unregister := by
  refine ⟨h.hasLeft, ?_⟩
  cases h with
  | starts _ hstage | dies hstage | leaves _ hstage | receives _ _ _ hstage | flushes _ _ hstage
  | idles _ hstage =>
      rw [hstage]
      simp [Stage.hasLeft]
  | unregisters | closesQueue | drains | concludes => exact fun _ => rfl
  | calls work _ _ _ hstage | completes work _ _ _ _ hstage =>
      rw [hstage]
      cases work <;> simp [Stage.hasLeft]
  | settles work _ hstage =>
      rw [hstage]
      cases work <;> simp [Stage.hasLeft, stageAfter]

namespace Traffic

variable {σ : Type}

/-- A task has given up its place in the table. -/
def HasLeft (traffic : Traffic σ) (id : TaskId) : Prop :=
  ∃ task, traffic.registry.task? id = some task ∧ task.stage.hasLeft = true

theorem hasLeft_iff_of_set {before after : Traffic σ} {changed : TaskId} {task task' : Task}
    (htask : before.registry.task? changed = some task)
    (htasks : after.registry.tasks = before.registry.tasks.set changed task') (id : TaskId) :
    after.HasLeft id ↔
      if changed = id then task'.stage.hasLeft = true else before.HasLeft id :=
  Registry.exists_task_iff_of_set htask htasks _ id

theorem hasLeft_iff_of_task {traffic : Traffic σ} {id : TaskId} {task : Task}
    (htask : traffic.registry.task? id = some task) :
    traffic.HasLeft id ↔ task.stage.hasLeft = true := by
  refine ⟨?_, fun hleft => ⟨task, htask, hleft⟩⟩
  rintro ⟨other, hother, hleft⟩
  rw [htask, Option.some.injEq] at hother
  rw [hother]
  exact hleft

/-- A task whose place is not touched. -/
theorem hasLeft_iff_of_keep {before after : Traffic σ} {changed : TaskId} {task task' : Task}
    (htask : before.registry.task? changed = some task)
    (htasks : after.registry.tasks = before.registry.tasks.set changed task')
    (hkeeps : task'.stage.hasLeft = true ↔ task.stage.hasLeft = true) (id : TaskId) :
    after.HasLeft id ↔ before.HasLeft id :=
  Registry.exists_task_iff_of_keep htask htasks hkeeps id

/-- Tasks give up their places by unregistering, and never take them again. -/
theorem Move.hasLeft_iff {shards : Shards} {traffic after : Traffic σ} {action : Action}
    (h : traffic.Move shards action after) (id : TaskId) :
    after.HasLeft id ↔ traffic.HasLeft id ∨ ∃ now, action = .task now id .unregister := by
  have hother : (∀ now, action ≠ .task now id .unregister) →
      (after.HasLeft id ↔ traffic.HasLeft id) →
      (after.HasLeft id ↔ traffic.HasLeft id ∨ ∃ now, action = .task now id .unregister) :=
    fun hne hiff => by simp [hne, hiff]
  cases h with
  | turns now changed step task task' service hturned hturn =>
      have htasks : service.registry.tasks = traffic.registry.tasks.set changed task' := by
        rw [hturned.registry_eq]
      rw [hasLeft_iff_of_set hturned.task_eq htasks]
      by_cases hid : changed = id
      · subst hid
        rw [if_pos rfl, hturn.hasLeft_iff, hasLeft_iff_of_task hturned.task_eq]
        simp
      · simp [hid]
  | opens n call hcall hstage =>
      refine hother (by simp) ?_
      unfold HasLeft Registry.task?
      constructor
      · rintro ⟨task, htask, hleft⟩
        rcases getElem?_concat_cases htask with hold | ⟨-, rfl⟩
        · exact ⟨task, hold, hleft⟩
        · cases hleft
      · rintro ⟨task, htask, hleft⟩
        have hlt := (List.getElem?_eq_some_iff.mp htask).1
        exact ⟨task, (List.getElem?_append_left hlt).trans htask, hleft⟩
  | spawns n call spawned =>
      refine hother (by simp) ?_
      rcases traffic.registry.spawn_cases spawned with hspawn | ⟨task, htask, hstage, hspawn⟩
      · rw [hspawn]
        exact Iff.rfl
      · rw [hspawn]
        exact hasLeft_iff_of_keep htask rfl (by rw [hstage]; exact Iff.rfl) id
  | posts n call posted task _ _ htask =>
      refine hother (by simp) ?_
      apply hasLeft_iff_of_keep htask
      · exact rfl
      · exact Iff.rfl
  | cancels n shard endpoint cancelled =>
      refine hother (by simp) ?_
      rcases traffic.registry.cancel_cases cancelled with hcancel | ⟨task, htask, hcancel⟩
      · rw [hcancel]
        exact Iff.rfl
      · rw [hcancel]
        apply hasLeft_iff_of_keep htask
        · exact rfl
        · exact Iff.rfl
  | _ => exact hother (by simp) Iff.rfl

/-! ## Places -/

/-- A session whose task has not left stands in the table under its endpoint, and no endpoint has
two places. -/
structure Tabled (traffic : Traffic σ) : Prop where
  keys_nodup : (traffic.registry.table.map Prod.fst).Nodup
  mem_table : ∀ id task, traffic.registry.task? id = some task → task.stage.hasLeft = false →
    (task.endpoint, id) ∈ traffic.registry.table

/-- A task that changes and keeps its place, if it has one. -/
theorem Tabled.of_set {before after : Traffic σ} (h : before.Tabled) {id : TaskId}
    {task task' : Task} (htask : before.registry.task? id = some task)
    (htasks : after.registry.tasks = before.registry.tasks.set id task')
    (hendpoint : task'.endpoint = task.endpoint)
    (htable : after.registry.table.Sublist before.registry.table)
    (hothers : ∀ entry ∈ before.registry.table, entry.2 ≠ id → entry ∈ after.registry.table)
    (hstays : task'.stage.hasLeft = false →
      task.stage.hasLeft = false ∧ after.registry.table = before.registry.table) :
    after.Tabled where
  keys_nodup := h.keys_nodup.sublist (htable.map Prod.fst)
  mem_table := by
    intro other found hfound hhere
    rw [Registry.task?, htasks] at hfound
    rcases getElem?_set_cases hfound with ⟨hid, rfl⟩ | ⟨hid, hold⟩
    · obtain ⟨hbefore, hsame⟩ := hstays hhere
      rw [hsame, hendpoint, ← hid]
      exact h.mem_table id task htask hbefore
    · exact hothers _ (h.mem_table other found hold hhere) (Ne.symm hid)

theorem Tabled.move {shards : Shards} {traffic after : Traffic σ} {action : Action}
    (h : traffic.Tabled) (hmove : traffic.Move shards action after) : after.Tabled := by
  have hkeeps : ∀ {after : Traffic σ} {id : TaskId} {task task' : Task},
      traffic.registry.task? id = some task →
      after.registry.tasks = traffic.registry.tasks.set id task' →
      after.registry.table = traffic.registry.table → task'.endpoint = task.endpoint →
      (task'.stage.hasLeft = false → task.stage.hasLeft = false) → after.Tabled := by
    intro after id task task' htask htasks htable hendpoint hstage
    refine h.of_set htask htasks hendpoint ?_ ?_ fun hhere => ⟨hstage hhere, htable⟩
    · rw [htable]
    · rw [htable]
      exact fun entry hentry _ => hentry
  cases hmove with
  | opens n call hcall hstage hnone =>
      constructor
      · have hnew : call.endpoint ∉ traffic.registry.table.map Prod.fst := by
          intro hmem
          obtain ⟨entry, hentry, heq⟩ := List.mem_map.mp hmem
          have hmissing := List.lookup_eq_none_iff.mp hnone entry hentry
          simp [heq] at hmissing
        change ((traffic.registry.table ++ [(call.endpoint, _)]).map Prod.fst).Nodup
        rw [List.map_append, List.nodup_append]
        refine ⟨h.keys_nodup, List.nodup_singleton _, ?_⟩
        intro key hkey new hmem heq
        rw [heq, List.mem_singleton.mp hmem] at hkey
        exact hnew hkey
      · intro id task htask hhere
        rcases getElem?_concat_cases htask with hold | ⟨rfl, rfl⟩
        · exact List.mem_append_left _ (h.mem_table id task hold hhere)
        · exact List.mem_append_right _ (List.mem_singleton.mpr rfl)
  | spawns n call id =>
      rcases traffic.registry.spawn_cases id with hspawn | ⟨task, htask, hstage, hspawn⟩
      · rw [hspawn]
        exact ⟨h.keys_nodup, h.mem_table⟩
      · rw [hspawn]
        exact hkeeps htask rfl rfl rfl fun _ => by rw [hstage]; rfl
  | posts n call id task _ _ htask => exact hkeeps htask rfl rfl rfl fun hhere => hhere
  | cancels n shard endpoint id =>
      rcases traffic.registry.cancel_cases id with hcancel | ⟨task, htask, hcancel⟩
      · rw [hcancel]
        exact ⟨h.keys_nodup, h.mem_table⟩
      · rw [hcancel]
        exact hkeeps htask rfl rfl rfl fun hhere => hhere
  | turns now id step task task' service hturned hturn =>
      have htasks : service.registry.tasks = traffic.registry.tasks.set id task' := by
        rw [hturned.registry_eq]
      by_cases hstep : step = .unregister
      · have htable : service.registry.table = traffic.registry.table.filter fun entry =>
            !(entry.1 == task.endpoint && entry.2 == id) := by
          rw [hturned.registry_eq, if_pos hstep]
        refine h.of_set hturned.task_eq htasks hturn.endpoint_eq ?_ ?_ fun hhere => ?_
        · change service.registry.table.Sublist _
          rw [htable]
          exact List.filter_sublist
        · intro entry hentry hother
          change entry ∈ service.registry.table
          rw [htable]
          exact List.mem_filter.mpr ⟨hentry, by simp [hother]⟩
        · rw [hturn.hasLeft_iff.mpr (.inr hstep)] at hhere
          cases hhere
      · refine hkeeps hturned.task_eq htasks ?_ hturn.endpoint_eq fun hhere => ?_
        · change service.registry.table = _
          rw [hturned.registry_eq, if_neg hstep]
        · cases hleft : task.stage.hasLeft with
          | false => rfl
          | true =>
              rw [hturn.hasLeft_iff.mpr (.inl hleft)] at hhere
              cases hhere
  | _ => exact ⟨h.keys_nodup, h.mem_table⟩

theorem tabled_fresh (config : ServerConfig) (world : World σ) (sessionIds : Nat → Uuid) :
    (fresh config world sessionIds).Tabled where
  keys_nodup := by simp [fresh, Registry.ofConfig]
  mem_table := by simp [fresh, Registry.task?, Registry.ofConfig]

/-- The places of the table are those of the sessions whose tasks have not left. -/
theorem Tabled.mem_table_iff {traffic : Traffic σ} (h : traffic.Tabled) (hlisted : traffic.Listed)
    (haddressed : traffic.Addressed) (endpoint : String) (id : TaskId) :
    (endpoint, id) ∈ traffic.registry.table ↔
      traffic.registry.endpointOf? id = some endpoint ∧ ¬traffic.HasLeft id := by
  constructor
  · intro hmem
    refine ⟨haddressed.table_addressed _ hmem, ?_⟩
    rintro ⟨task, htask, hleft⟩
    rw [hlisted _ hmem task htask] at hleft
    cases hleft
  · rintro ⟨hendpoint, hhere⟩
    obtain ⟨task, htask, rfl⟩ := Option.map_eq_some_iff.mp hendpoint
    rw [hasLeft_iff_of_task htask, Bool.not_eq_true] at hhere
    exact h.mem_table id task htask hhere

/-- An endpoint has one place at most. -/
theorem Tabled.eq_of_mem {traffic : Traffic σ} (h : traffic.Tabled) {endpoint : String}
    {id other : TaskId} (hid : (endpoint, id) ∈ traffic.registry.table)
    (hother : (endpoint, other) ∈ traffic.registry.table) : id = other :=
  congrArg Prod.snd (List.inj_on_of_nodup_map h.keys_nodup hid hother rfl)

theorem Tabled.lookup?_eq_some_iff {traffic : Traffic σ} (h : traffic.Tabled) (endpoint : String)
    (id : TaskId) :
    traffic.registry.lookup? endpoint = some id ↔ (endpoint, id) ∈ traffic.registry.table := by
  refine ⟨Registry.mem_table_of_lookup?, fun hmem => ?_⟩
  cases hlookup : traffic.registry.lookup? endpoint with
  | none => simpa using List.lookup_eq_none_iff.mp hlookup _ hmem
  | some other => rw [h.eq_of_mem hmem (Registry.mem_table_of_lookup? hlookup)]

/-! ## Identifiers -/

end Traffic

/-- No turn changes the identifier of a session. -/
theorem Task.Turn.within_univ {interval : Duration} {task after : Task} {step : TaskStep}
    {operation : Option Operation} {id : Uuid} (h : task.Turn interval step operation after)
    (hwithin : task.Within Set.univ id) : after.Within Set.univ id := by
  by_cases hstep : step = .complete
  · subst hstep
    cases h with
    | completes work request next fails reply hstage =>
        refine hwithin.reply hstage (Set.Subset.refl _) ?_
        cases request <;> trivial
  · exact h.within hstep hwithin

/-- The identifier of a session. -/
def Registry.sessionIdOf? (registry : Registry) (id : TaskId) : Option Uuid :=
  (registry.task? id).map (·.session.id)

namespace Traffic

variable {σ : Type}

/-- Every session has the identifier that was drawn for it when it was opened. -/
def Identified (traffic : Traffic σ) : Prop :=
  ∀ id task, traffic.registry.task? id = some task →
    task.Within Set.univ (traffic.service.sessionIds id)

theorem Identified.of_set {before after : Traffic σ} (h : before.Identified) {id : TaskId}
    {task task' : Task} (htask : before.registry.task? id = some task)
    (htasks : after.registry.tasks = before.registry.tasks.set id task')
    (hids : after.service.sessionIds = before.service.sessionIds)
    (hwithin : ∀ sessionId, task.Within Set.univ sessionId → task'.Within Set.univ sessionId) :
    after.Identified := by
  intro other found hfound
  rw [hids]
  rw [Registry.task?, htasks] at hfound
  rcases getElem?_set_cases hfound with ⟨rfl, rfl⟩ | ⟨-, hold⟩
  · exact hwithin _ (h id task htask)
  · exact h other found hold

theorem Identified.move {shards : Shards} {traffic after : Traffic σ} {action : Action}
    (h : traffic.Identified) (hmove : traffic.Move shards action after) : after.Identified := by
  cases hmove with
  | opens n call =>
      intro id task htask
      rcases getElem?_concat_cases htask with hold | ⟨rfl, rfl⟩
      · exact h id task hold
      · exact Task.within_newTask _ _ _ _
  | spawns n call id =>
      rcases traffic.registry.spawn_cases id with hspawn | ⟨task, htask, -, hspawn⟩
      · rw [hspawn]
        exact h
      · rw [hspawn]
        exact h.of_set htask rfl rfl fun _ hwithin => .of_session hwithin.session nofun
  | posts n call id task _ _ htask =>
      exact h.of_set htask rfl rfl fun _ hwithin => ⟨hwithin.session, hwithin.script⟩
  | cancels n shard endpoint id =>
      rcases traffic.registry.cancel_cases id with hcancel | ⟨task, htask, hcancel⟩
      · rw [hcancel]
        exact h
      · rw [hcancel]
        exact h.of_set htask rfl rfl fun _ hwithin => ⟨hwithin.session, hwithin.script⟩
  | turns now id step task task' service hturned hturn =>
      have htasks : service.registry.tasks = traffic.registry.tasks.set id task' := by
        rw [hturned.registry_eq]
      exact h.of_set hturned.task_eq htasks hturned.sessionIds_eq fun _ => hturn.within_univ
  | _ => exact h

theorem identified_fresh (config : ServerConfig) (world : World σ) (sessionIds : Nat → Uuid) :
    (fresh config world sessionIds).Identified := by
  simp [Identified, fresh, Registry.task?, Registry.ofConfig]

/-! ## First contacts -/

/-- A call knows the task that its sample is for, or has queued it there. -/
def Reaches (traffic : Traffic σ) (n : Nat) (id : TaskId) : Prop :=
  (∃ call, traffic.calls[n]? = some call ∧ (call.stage = .spawning id ∨ call.stage = .sending id)) ∨
    ∃ sample, ⟨n, id, sample⟩ ∈ traffic.posted

theorem reaches_of_set (before : Traffic σ) {after : Traffic σ} {n m : Nat} {call : RouteCall}
    {stage : RouteStage} {id : TaskId} (h : after.Reaches m id)
    (hcalls : after.calls = before.calls.set n { call with stage })
    (hposted : after.posted = before.posted) :
    before.Reaches m id ∨ n = m ∧ (stage = .spawning id ∨ stage = .sending id) := by
  rcases h with ⟨found, hfound, hstage⟩ | ⟨sample, hmem⟩
  · rw [hcalls] at hfound
    rcases getElem?_set_cases hfound with ⟨hm, rfl⟩ | ⟨-, hold⟩
    · exact .inr ⟨hm, hstage⟩
    · exact .inl (.inl ⟨found, hold, hstage⟩)
  · rw [hposted] at hmem
    exact .inl (.inr ⟨sample, hmem⟩)

/-- A call comes to know a task by finding it in the table or putting it there. -/
theorem Move.reaches {shards : Shards} {traffic after : Traffic σ} {action : Action}
    (h : traffic.Move shards action after) {n : Nat} {id : TaskId} (hreaches : after.Reaches n id) :
    traffic.Reaches n id ∨
      ∃ call, traffic.calls[n]? = some call ∧ (call.endpoint, id) ∈ after.registry.table := by
  cases h with
  | arrives endpoint sample =>
      left
      rcases hreaches with ⟨call, hcall, hstage⟩ | hposted
      · rcases getElem?_concat_cases hcall with hold | ⟨-, rfl⟩
        · exact .inl ⟨call, hold, hstage⟩
        · simp at hstage
      · exact .inr hposted
  | finds m call found hcall _ hfound =>
      refine (reaches_of_set traffic hreaches rfl rfl).imp_right ?_
      rintro ⟨rfl, hstage⟩
      obtain rfl : found = id := by simpa using hstage
      exact ⟨call, hcall, Registry.mem_table_of_lookup? hfound⟩
  | misses m call | isRefused m call | dies m call | drops m call =>
      refine (reaches_of_set traffic hreaches rfl rfl).imp_right ?_
      rintro ⟨-, hstage⟩
      simp at hstage
  | opens m call hcall =>
      refine (reaches_of_set traffic hreaches rfl rfl).imp_right ?_
      rintro ⟨rfl, hstage⟩
      obtain rfl : traffic.registry.tasks.length = id := by simpa using hstage
      exact ⟨call, hcall, List.mem_append_right _ (List.mem_singleton.mpr rfl)⟩
  | spawns m call spawned hcall hspawning =>
      left
      rcases reaches_of_set traffic hreaches rfl rfl with hbefore | ⟨rfl, hstage⟩
      · exact hbefore
      · obtain rfl : spawned = id := by simpa using hstage
        exact .inl ⟨call, hcall, .inl hspawning⟩
  | posts m call posted task hcall hsending =>
      left
      rcases hreaches with ⟨found, hfound, hstage⟩ | ⟨sample, hmem⟩
      · rcases getElem?_set_cases hfound with ⟨-, rfl⟩ | ⟨-, hold⟩
        · simp at hstage
        · exact .inl ⟨found, hold, hstage⟩
      · rcases List.mem_append.mp hmem with hold | hnew
        · exact .inr ⟨sample, hold⟩
        · obtain ⟨rfl, rfl, -⟩ : n = m ∧ id = posted ∧ sample = call.sample := by simpa using hnew
          exact .inl ⟨call, hcall, .inr hsending⟩
  | turns | beginsClose | refuses | passes | awaits | cancels | reopens => exact .inl hreaches

/-- What was no task before is the only thing that a move can make a task of an endpoint. -/
theorem TasksMove.endpointOf?_eq_of_lt {before after : Traffic σ} (h : before.TasksMove after)
    {id : TaskId} (hlt : id < before.registry.tasks.length) :
    after.registry.endpointOf? id = before.registry.endpointOf? id := by
  have htask : before.registry.task? id = some (before.registry.tasks[id]) :=
    List.getElem?_eq_getElem hlt
  have hid : before.registry.endpointOf? id = some (before.registry.tasks[id]).endpoint := by
    rw [Registry.endpointOf?, htask, Option.map_some]
  rw [hid]
  exact h.endpointOf?_eq hid

/-- No task goes away. -/
theorem TasksMove.length_le {before after : Traffic σ} (h : before.TasksMove after) :
    before.registry.tasks.length ≤ after.registry.tasks.length := by
  cases h with
  | rests htasks => rw [htasks]
  | opens endpoint sessionId htasks =>
      rw [htasks, List.length_append]
      exact Nat.le_add_right _ _
  | changes n id task task' operations samples htask hchange htasks =>
      rw [htasks, List.length_set]

/-- The sessions that an endpoint had are gone, so a call for it can only come to know one that was
opened since. -/
structure Renewed (base : Traffic σ) (endpoint : String) (traffic : Traffic σ) : Prop where
  length_le : base.registry.tasks.length ≤ traffic.registry.tasks.length
  left : ∀ id < base.registry.tasks.length, traffic.registry.endpointOf? id = some endpoint →
    traffic.HasLeft id
  reached : ∀ n id, traffic.Reaches n id → traffic.registry.endpointOf? id = some endpoint →
    base.Reaches n id ∨ base.registry.tasks.length ≤ id

theorem Renewed.move {shards : Shards} {base traffic after : Traffic σ} {endpoint : String}
    {action : Action} (h : base.Renewed endpoint traffic) (hlisted : after.Listed)
    (hmove : traffic.Move shards action after) : base.Renewed endpoint after := by
  have hendpoint : ∀ id < base.registry.tasks.length,
      after.registry.endpointOf? id = traffic.registry.endpointOf? id := fun id hlt =>
    hmove.tasksMove.endpointOf?_eq_of_lt (hlt.trans_le h.length_le)
  have hleft : ∀ id < base.registry.tasks.length,
      after.registry.endpointOf? id = some endpoint → after.HasLeft id := fun id hlt hid =>
    (hmove.hasLeft_iff id).mpr (.inl (h.left id hlt ((hendpoint id hlt).symm.trans hid)))
  refine ⟨h.length_le.trans hmove.tasksMove.length_le, hleft, fun n id hreaches hid => ?_⟩
  by_cases hlt : id < base.registry.tasks.length
  · left
    rcases hmove.reaches hreaches with hbefore | ⟨call, hcall, hmem⟩
    · exact (h.reached n id hbefore ((hendpoint id hlt).symm.trans hid)).resolve_right
        (Nat.not_le_of_lt hlt)
    · -- what stands in the table has not left it
      obtain ⟨task, htask, hgone⟩ := hleft id hlt hid
      rw [hlisted _ hmem task htask] at hgone
      cases hgone
  · exact .inr (Nat.le_of_not_lt hlt)

/-! ## Runs -/

/-- What holds of the table, the tasks and the callers in every run, and what follows from it. -/
structure Occupied (traffic : Traffic σ) : Prop where
  addressed : traffic.Addressed
  listed : traffic.Listed
  tabled : traffic.Tabled
  identified : traffic.Identified

theorem Occupied.move {shards : Shards} {traffic after : Traffic σ} {action : Action}
    (h : traffic.Occupied) (hmove : traffic.Move shards action after) : after.Occupied where
  addressed := h.addressed.move hmove
  listed := h.listed.move h.addressed hmove
  tabled := h.tabled.move hmove
  identified := h.identified.move hmove

theorem occupied_fresh (config : ServerConfig) (world : World σ) (sessionIds : Nat → Uuid) :
    (fresh config world sessionIds).Occupied where
  addressed := addressed_fresh config world sessionIds
  listed := listed_fresh config world sessionIds
  tabled := tabled_fresh config world sessionIds
  identified := identified_fresh config world sessionIds

/-- The sessions of the table are those that have not left, with one for an endpoint at most. -/
theorem Occupied.mem_table_iff {traffic : Traffic σ} (h : traffic.Occupied) (endpoint : String)
    (id : TaskId) :
    (endpoint, id) ∈ traffic.registry.table ↔
      traffic.registry.endpointOf? id = some endpoint ∧ ¬traffic.HasLeft id :=
  h.tabled.mem_table_iff h.listed h.addressed endpoint id

/-- Of two sessions of an endpoint one has left. -/
theorem Occupied.hasLeft_or {traffic : Traffic σ} (h : traffic.Occupied) {endpoint : String}
    {id other : TaskId} (hne : id ≠ other)
    (hid : traffic.registry.endpointOf? id = some endpoint)
    (hother : traffic.registry.endpointOf? other = some endpoint) :
    traffic.HasLeft id ∨ traffic.HasLeft other := by
  by_contra hboth
  obtain ⟨hidHere, hotherHere⟩ := not_or.mp hboth
  exact hne (h.tabled.eq_of_mem ((h.mem_table_iff endpoint id).mpr ⟨hid, hidHere⟩)
    ((h.mem_table_iff endpoint other).mpr ⟨hother, hotherHere⟩))

/-- No session has left when there was none. -/
theorem not_hasLeft_fresh (config : ServerConfig) (world : World σ) (sessionIds : Nat → Uuid)
    (id : TaskId) : ¬(fresh config world sessionIds).HasLeft id := by
  simp [HasLeft, fresh, Registry.task?, Registry.ofConfig]

/-- When an endpoint has no session in the table, all that it had have left. -/
theorem Occupied.renewed {traffic : Traffic σ} (h : traffic.Occupied) {endpoint : String}
    (hnone : traffic.registry.lookup? endpoint = none) : traffic.Renewed endpoint traffic where
  length_le := Nat.le_refl _
  left := by
    intro id hlt hid
    by_contra hhere
    have hfound := (h.tabled.lookup?_eq_some_iff endpoint id).mpr
      ((h.mem_table_iff endpoint id).mpr ⟨hid, hhere⟩)
    rw [hnone] at hfound
    cases hfound
  reached := fun _ _ hreaches _ => .inl hreaches

variable [Store σ]

/-- Among the actions of a run, the task takes the step that unregisters it. -/
def Unregisters (shards : Shards) (start : Traffic σ) (actions : List Action) (id : TaskId) :
    Prop :=
  ∃ earlier now later, actions = earlier ++ .task now id .unregister :: later ∧
    ((start.run shards earlier).step? shards (.task now id .unregister)).isSome = true

theorem not_unregisters_nil (shards : Shards) (start : Traffic σ) (id : TaskId) :
    ¬start.Unregisters shards [] id := by
  rintro ⟨earlier, now, later, hactions, -⟩
  simp at hactions

theorem unregisters_cons_iff (shards : Shards) (start : Traffic σ) (action : Action)
    (actions : List Action) (id : TaskId) :
    start.Unregisters shards (action :: actions) id ↔
      (∃ now, action = .task now id .unregister ∧ (start.step? shards action).isSome = true) ∨
        (start.step shards action).Unregisters shards actions id := by
  constructor
  · rintro ⟨earlier, now, later, hactions, hstep⟩
    cases earlier with
    | nil =>
        obtain ⟨rfl, rfl⟩ := List.cons.inj hactions
        exact .inl ⟨now, rfl, hstep⟩
    | cons first earlier =>
        obtain ⟨rfl, rfl⟩ := List.cons.inj hactions
        exact .inr ⟨earlier, now, later, rfl, hstep⟩
  · rintro (⟨now, rfl, hstep⟩ | ⟨earlier, now, later, rfl, hstep⟩)
    · exact ⟨[], now, actions, rfl, hstep⟩
    · exact ⟨action :: earlier, now, later, rfl, hstep⟩

/-- The tasks that have left after a run are those that had before and those that unregistered. -/
theorem hasLeft_run_iff (shards : Shards) (start : Traffic σ) (actions : List Action)
    (id : TaskId) :
    (start.run shards actions).HasLeft id ↔
      start.HasLeft id ∨ start.Unregisters shards actions id := by
  induction actions generalizing start with
  | nil => simp [run, not_unregisters_nil]
  | cons action actions ih =>
      have hstep : (start.step shards action).HasLeft id ↔ start.HasLeft id ∨
          ∃ now, action = .task now id .unregister ∧ (start.step? shards action).isSome = true := by
        unfold step
        cases hafter : start.step? shards action with
        | none => simp
        | some after => simpa using (move_of_step hafter).hasLeft_iff id
      rw [run_cons, ih, hstep, unregisters_cons_iff, or_assoc]

theorem occupied_run (shards : Shards) {traffic : Traffic σ} (h : traffic.Occupied)
    (actions : List Action) : (traffic.run shards actions).Occupied :=
  run_induction actions (fun _ hbefore _ _ _ hmove => hbefore.move hmove) h

theorem Occupied.renewed_run (shards : Shards) {traffic : Traffic σ} (h : traffic.Occupied)
    {endpoint : String} (hnone : traffic.registry.lookup? endpoint = none)
    (later : List Action) : traffic.Renewed endpoint (traffic.run shards later) := by
  refine (run_induction (P := fun after => after.Occupied ∧ traffic.Renewed endpoint after) later
    ?_ ⟨h, h.renewed hnone⟩).2
  intro before ⟨hbefore, hrenewed⟩ action _ after hmove
  exact ⟨hbefore.move hmove, hrenewed.move (hbefore.move hmove).listed hmove⟩

/-- A task that unregisters finds its place in the table, takes it out, and leaves all others;
asking for the identifier of the session takes out the same. -/
theorem Occupied.table_of_unregister {shards : Shards} {traffic after : Traffic σ}
    (h : traffic.Occupied) {now : Nat} {id : TaskId}
    (hstep : traffic.step? shards (.task now id .unregister) = some after) :
    ∃ endpoint, (endpoint, id) ∈ traffic.registry.table ∧
      after.registry.table = traffic.registry.table.erase (endpoint, id) ∧
      after.registry.table = traffic.registry.table.filter fun entry =>
        !(entry.1 == endpoint &&
          traffic.registry.sessionIdOf? entry.2 == traffic.registry.sessionIdOf? id) := by
  cases move_of_step hstep with
  | turns now id step task task' service hturned hturn =>
      have htable : service.registry.table = traffic.registry.table.filter fun entry =>
          !(entry.1 == task.endpoint && entry.2 == id) := by
        rw [hturned.registry_eq, if_pos rfl]
      have hmem : (task.endpoint, id) ∈ traffic.registry.table := by
        refine h.tabled.mem_table id task hturned.task_eq ?_
        cases hturn with
        | unregisters hstage => rw [hstage]; rfl
      have honly : ∀ entry ∈ traffic.registry.table, entry.1 = task.endpoint → entry.2 = id := by
        rintro ⟨endpoint, other⟩ hentry rfl
        exact h.tabled.eq_of_mem hentry hmem
      refine ⟨task.endpoint, hmem, ?_, ?_⟩
      · change service.registry.table = _
        rw [htable, (List.Nodup.of_map _ h.tabled.keys_nodup).erase_eq_filter]
        refine List.filter_congr fun entry _ => ?_
        rw [Bool.eq_iff_iff]
        simp [Prod.ext_iff, imp_iff_not_or]
      · change service.registry.table = _
        rw [htable]
        refine List.filter_congr fun entry hentry => ?_
        by_cases hown : entry.1 = task.endpoint
        · simp [hown, honly entry hentry hown]
        · rw [beq_false_of_ne hown, Bool.false_and, Bool.false_and]

/-- A call that found no session earlier finds one now or opens one, if one can be made. -/
theorem exists_reaches_of_opening {shards : Shards} {traffic : Traffic σ} {n : Nat}
    {call : RouteCall} (hcall : traffic.calls[n]? = some call) (hstage : call.stage = .opening)
    (hopen : traffic.registry.closed = false)
    (hsurvives : traffic.registry.isFatal call.endpoint = false) :
    ∃ after id, traffic.step? shards (.route n) = some after ∧ after.Reaches n id ∧
      (traffic.registry.lookup? call.endpoint = some id ∧
          after.registry.tasks.length = traffic.registry.tasks.length ∨
        traffic.registry.lookup? call.endpoint = none ∧ id = traffic.registry.tasks.length ∧
          after.registry.tasks.length = traffic.registry.tasks.length + 1) := by
  cases hlookup : traffic.registry.lookup? call.endpoint with
  | some id =>
      exact ⟨_, id, route?_of_found hcall (.inr hstage) hlookup,
        .inl ⟨_, getElem?_calls_setStage _ hcall _, .inr rfl⟩, .inl ⟨rfl, rfl⟩⟩
  | none =>
      exact ⟨_, _, route?_of_opened hcall hstage hlookup hopen hsurvives,
        .inl ⟨_, getElem?_calls_setStage _ hcall _, .inl rfl⟩,
        .inr ⟨rfl, rfl, List.length_append⟩⟩

/-! ## The table corresponds to the tasks -/

/-- How the table and the tasks correspond, when these tasks have unregistered. -/
structure Corresponds (shards : Shards) (sessionIds : Nat → Uuid) (unregistered : TaskId → Prop)
    (traffic : Traffic σ) : Prop where
  /-- The places are those of the sessions opened for the endpoint that did not unregister. -/
  mem_table_iff : ∀ endpoint id, (endpoint, id) ∈ traffic.registry.table ↔
    traffic.registry.endpointOf? id = some endpoint ∧ ¬unregistered id
  /-- Each session has the identifier that was drawn for it, and no other. -/
  sessionId_eq : ∀ id task, traffic.registry.task? id = some task →
    task.session.id = sessionIds id
  /-- An endpoint has one place at most, -/
  keys_nodup : (traffic.registry.table.map Prod.fst).Nodup
  /-- so of two of its sessions one has unregistered. -/
  unregistered_or : ∀ endpoint id other, id ≠ other →
    traffic.registry.endpointOf? id = some endpoint →
    traffic.registry.endpointOf? other = some endpoint → unregistered id ∨ unregistered other
  /-- A task that unregisters takes out its own place, which is there, and nothing else; to ask for
  the identifier of the session takes out the same. -/
  table_of_unregister : ∀ now id after,
    traffic.step? shards (.task now id .unregister) = some after →
    ∃ endpoint, (endpoint, id) ∈ traffic.registry.table ∧
      after.registry.table = traffic.registry.table.erase (endpoint, id) ∧
      after.registry.table = traffic.registry.table.filter fun entry =>
        !(entry.1 == endpoint &&
          traffic.registry.sessionIdOf? entry.2 == traffic.registry.sessionIdOf? id)
  /-- A call that is about to open a session finds the one that another call opened meanwhile, or
  opens one, unless new sessions are refused or none can have the capacities that were asked for. -/
  opening : ∀ n call, traffic.calls[n]? = some call → call.stage = .opening →
    traffic.registry.closed = false → traffic.registry.isFatal call.endpoint = false →
    ∃ after id, traffic.step? shards (.route n) = some after ∧ after.Reaches n id ∧
      (traffic.registry.lookup? call.endpoint = some id ∧
          after.registry.tasks.length = traffic.registry.tasks.length ∨
        traffic.registry.lookup? call.endpoint = none ∧ id = traffic.registry.tasks.length ∧
          after.registry.tasks.length = traffic.registry.tasks.length + 1)
  /-- When an endpoint has no place, every call that comes to know a session of it later knows one
  that was opened since, and no other session was opened for the endpoint since, unless one of the
  two unregistered again. -/
  first_contact : ∀ endpoint, traffic.registry.lookup? endpoint = none → ∀ later n id,
    (traffic.run shards later).Reaches n id → ¬traffic.Reaches n id →
    (traffic.run shards later).registry.endpointOf? id = some endpoint →
    traffic.registry.tasks.length ≤ id ∧
      ∀ other ≠ id, traffic.registry.tasks.length ≤ other →
        (traffic.run shards later).registry.endpointOf? other = some endpoint →
        traffic.Unregisters shards later id ∨ traffic.Unregisters shards later other

theorem Occupied.first_contact (shards : Shards) {traffic : Traffic σ} (h : traffic.Occupied)
    {endpoint : String} (hnone : traffic.registry.lookup? endpoint = none) (later : List Action)
    {n : Nat} {id : TaskId} (hreaches : (traffic.run shards later).Reaches n id)
    (hnew : ¬traffic.Reaches n id)
    (hid : (traffic.run shards later).registry.endpointOf? id = some endpoint) :
    traffic.registry.tasks.length ≤ id ∧
      ∀ other ≠ id, traffic.registry.tasks.length ≤ other →
        (traffic.run shards later).registry.endpointOf? other = some endpoint →
        traffic.Unregisters shards later id ∨ traffic.Unregisters shards later other := by
  have hrenewed := h.renewed_run shards hnone later
  have hsince := (hrenewed.reached n id hreaches hid).resolve_left hnew
  refine ⟨hsince, fun other hne hotherSince hother => ?_⟩
  -- a session that was opened since had not left before
  have hunregisters : ∀ known, traffic.registry.tasks.length ≤ known →
      (traffic.run shards later).HasLeft known → traffic.Unregisters shards later known := by
    intro known hknown hleft
    refine ((hasLeft_run_iff shards traffic later known).mp hleft).resolve_left ?_
    rintro ⟨task, htask, -⟩
    exact Nat.not_le_of_lt (List.getElem?_eq_some_iff.mp htask).1 hknown
  exact ((occupied_run shards h later).hasLeft_or hne.symm hid hother).imp
    (hunregisters id hsince) (hunregisters other hotherSince)

theorem sessionIds_run (shards : Shards) (traffic : Traffic σ) (actions : List Action) :
    (traffic.run shards actions).service.sessionIds = traffic.service.sessionIds := by
  refine run_induction (P := fun after => after.service.sessionIds = traffic.service.sessionIds)
    actions ?_ rfl
  intro before hbefore action _ after hmove
  rw [← hbefore]
  cases hmove with
  | turns now id step task task' service hturned => exact hturned.sessionIds_eq
  | _ => rfl

/-- **Table and tasks correspond in every run**, whoever routes samples, closes the registry or
reopens it meanwhile: the table has exactly the sessions whose tasks did not unregister. -/
theorem table_corresponds (shards : Shards) (config : ServerConfig) (world : World σ)
    (sessionIds : Nat → Uuid) (actions : List Action) :
    let start := fresh config world sessionIds
    (start.run shards actions).Corresponds shards sessionIds
      (start.Unregisters shards actions) := by
  intro start
  have hoccupied : (start.run shards actions).Occupied :=
    occupied_run shards (occupied_fresh config world sessionIds) actions
  have hleft : ∀ id, (start.run shards actions).HasLeft id ↔ start.Unregisters shards actions id :=
    fun id => (hasLeft_run_iff shards start actions id).trans
      (or_iff_right (not_hasLeft_fresh config world sessionIds id))
  refine
    { mem_table_iff := ?_
      sessionId_eq := ?_
      keys_nodup := hoccupied.tabled.keys_nodup
      unregistered_or := ?_
      table_of_unregister := fun _ _ _ => hoccupied.table_of_unregister
      opening := fun _ _ => exists_reaches_of_opening
      first_contact := fun _ hnone later _ _ => hoccupied.first_contact shards hnone later }
  · intro endpoint id
    rw [hoccupied.mem_table_iff, hleft]
  · intro id task htask
    have hids : (start.run shards actions).service.sessionIds = sessionIds :=
      sessionIds_run shards start actions
    rw [(hoccupied.identified id task htask).session.id_eq, hids]
  · intro endpoint id other hne hid hother
    exact (hoccupied.hasLeft_or hne hid hother).imp (hleft id).mp (hleft other).mp

/-- A session is told to close and unregisters while a sample is still queued for it. Two calls that
met no session in the meantime open one between them, which has the place while the first drains. -/
theorem corresponds_of_successor :
    let world := World.fresh MemoryStore.empty .none (fun _ => default) .ofNat
    let start := fresh {} world .ofNat
    let actions := [.arrive "car" (.lapping .one), .route 0, .route 0, .route 0, .route 0,
      .task 0 0 .start, .beginClose, .close 0, .cancel 0 "car", .reopen, .task 0 0 .leave,
      .arrive "car" (.lapping .one), .arrive "car" (.lapping .one), .task 0 0 .unregister,
      .route 1, .route 2, .task 0 0 .closeQueue, .route 1, .route 2]
    let traffic := start.run .single actions
    traffic.Corresponds .single .ofNat (start.Unregisters .single actions) ∧
      start.Unregisters .single actions 0 ∧ traffic.registry.table = [("car", 1)] ∧
      traffic.calls.map RouteCall.stage = [.returned true, .spawning 1, .sending 1] ∧
      traffic.registry.tasks.map (·.queue.samples.length) = [1, 0] := by
  intro world start actions traffic
  refine ⟨table_corresponds .single {} world .ofNat actions, ?_, by decide +kernel,
    by decide +kernel, by decide +kernel⟩
  exact ⟨actions.take 13, 0, actions.drop 14, rfl, by decide +kernel⟩

end Traffic

end RaceIngest
