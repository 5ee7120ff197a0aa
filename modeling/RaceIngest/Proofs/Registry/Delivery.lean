import Mathlib.Algebra.Group.Nat.Defs
import RaceIngest.Proofs.Registry.Callers
import RaceIngest.Proofs.Registry.Progress
import RaceIngest.Proofs.Session.Filing
import RaceIngest.Store.Memory

/-!
# Routed samples reach their session exactly once

A sample for which routing returned `true` is added to exactly one session, exactly once, in the
order in which samples were queued for it and before the session is closed; any other sample is
added to none. This follows from the accounts of the tasks and from what callers answer.

One thing breaks it. A task whose checkpoint interval no clock can tick at dies with its queue when
it first runs. So samples are delivered in all runs exactly when the interval is possible, or no
session can be made at all and nothing is ever queued.

## Main results

* `Traffic.Delivered`: what it means that samples are delivered exactly once and in order.
* `Traffic.delivered_iff_possible`: all runs deliver exactly when sessions that can be made can run.
-/

namespace RaceIngest

namespace Traffic

variable {σ : Type} [Store σ]

/-- Samples are delivered exactly once and in order. -/
structure Delivered (shards : Shards) (traffic : Traffic σ) : Prop where
  /-- No call queues its sample twice. -/
  posted_once : (traffic.posted.map Posted.call).Nodup
  /-- The calls that queue their sample are those that return `true`. -/
  posted_iff : ∀ n call, traffic.calls[n]? = some call →
    (n ∈ traffic.posted.map Posted.call ↔ call.stage = .returned true)
  /-- What a call queues is its own sample, for one session of its own endpoint. -/
  posted_call : ∀ posted ∈ traffic.posted, ∃ call task,
    traffic.calls[posted.call]? = some call ∧ call.sample = posted.sample ∧
      traffic.registry.task? posted.task = some task ∧ task.endpoint = call.endpoint
  /-- A session adds what was queued for it, in this order and nothing else; what it has not added
  yet is still queued. -/
  added_in_order : ∀ id task, traffic.registry.task? id = some task →
    addedSamples (traffic.performed id) ++ task.queue.samples = traffic.postedTo id
  /-- A task that was spawned can add all that is queued for it by steps of its own. -/
  can_add : ∀ id task, traffic.registry.task? id = some task → task.stage ≠ .opened →
    ∃ steps : List TaskStep,
      addedSamples ((traffic.run shards (steps.map (.task 0 id ·))).performed id) =
        traffic.postedTo id
  /-- Only sessions add samples. -/
  begun_by_task : ∀ entry ∈ traffic.begun, ∃ task, traffic.registry.task? entry.1 = some task
  /-- When a session is closed everything was added that is ever queued for it, and nothing comes
  after that. -/
  closed_last : ∀ id earlier later, traffic.performed id = earlier ++ .close :: later →
    addedSamples earlier = traffic.postedTo id ∧ later = []
  /-- A task that is over has closed its session. -/
  closed_at_end : ∀ id task, traffic.registry.task? id = some task → task.stage = .ended →
    .close ∈ traffic.performed id
  /-- No queue holds more than it may. -/
  length_le : ∀ id task, traffic.registry.task? id = some task →
    task.queue.samples.length ≤ traffic.registry.queueCapacity

/-- When no task that there is can die, samples are delivered. -/
theorem delivered_of_possible (shards : Shards) {traffic : Traffic σ}
    (haccounted : traffic.Accounted) (hanswered : traffic.Answered)
    (haddressed : traffic.Addressed) (hunstuck : traffic.Unstuck)
    (hpossible : ∀ id task, traffic.registry.task? id = some task →
      isPossibleInterval traffic.registry.interval = true) :
    traffic.Delivered shards where
  posted_once := hanswered.posted_once
  posted_iff := by
    intro n call hcall
    refine ⟨fun hmem => ?_, hanswered.accepted_posted n call hcall⟩
    obtain ⟨posted, hposted, rfl⟩ := List.mem_map.mp hmem
    obtain ⟨other, hother, hreturned, -⟩ := hanswered.posted_call posted hposted
    rw [hcall, Option.some.injEq] at hother
    rw [hother]
    exact hreturned
  posted_call := by
    intro posted hposted
    obtain ⟨call, hcall, -, hsample⟩ := hanswered.posted_call posted hposted
    obtain ⟨call', hcall', hid⟩ := haddressed.posted_addressed posted hposted
    obtain ⟨task, htask, hendpoint⟩ := Option.map_eq_some_iff.mp hid
    rw [hcall, Option.some.injEq] at hcall'
    exact ⟨call, task, hcall, hsample, htask, by rw [hcall']; exact hendpoint⟩
  added_in_order := fun id task htask =>
    (haccounted.task_accounted id task htask).samples_eq
      (haccounted.alive (hpossible id task htask) htask)
  can_add := fun id task htask =>
    exists_added shards haccounted hunstuck (hpossible id task htask) htask
  begun_by_task := fun entry hentry =>
    ⟨_, List.getElem?_eq_getElem (haccounted.begun_lt entry hentry)⟩
  closed_last := by
    intro id earlier later hperformed
    have hlt : id < traffic.registry.tasks.length := by
      rcases Nat.lt_or_ge id traffic.registry.tasks.length with hlt | hge
      · exact hlt
      · rw [haccounted.performed_eq_nil hge] at hperformed
        simp at hperformed
    have htask : traffic.registry.task? id = some traffic.registry.tasks[id] :=
      List.getElem?_eq_getElem hlt
    have haccount := haccounted.task_accounted id _ htask
    have hclosing := haccount.isClosing_of_mem (by rw [hperformed]; simp)
    obtain ⟨hempty, added, hadded, hunclosed⟩ := haccount.closes_last hclosing
    have hsamples := haccount.samples_eq (haccounted.alive (hpossible id _ htask) htask)
    obtain ⟨hearlier, hlater⟩ :=
      eq_of_append_cons_eq_concat (hperformed.symm.trans hadded) hunclosed
    rw [hempty, List.append_nil, hadded, addedSamples_concat_of_none added rfl] at hsamples
    exact ⟨by rw [hearlier]; exact hsamples, hlater⟩
  closed_at_end := by
    intro id task htask hstage
    obtain ⟨-, added, hadded, -⟩ :=
      (haccounted.task_accounted id task htask).closes_last (by rw [hstage]; rfl)
    rw [hadded]
    exact List.mem_append.mpr (.inr (List.mem_singleton.mpr rfl))
  length_le := fun id task htask => (haccounted.task_accounted id task htask).length_le

/-! ## Runs -/

theorem invariant_run (shards : Shards) (config : ServerConfig) (world : World σ)
    (sessionIds : Nat → Uuid) (actions : List Action) :
    let traffic := (fresh config world sessionIds).run shards actions
    traffic.Accounted ∧ traffic.Answered ∧ traffic.Addressed ∧ traffic.Unstuck ∧
      traffic.registry.interval = config.checkpointInterval := by
  refine run_induction (P := fun traffic => traffic.Accounted ∧ traffic.Answered ∧
    traffic.Addressed ∧ traffic.Unstuck ∧
    traffic.registry.interval = config.checkpointInterval) actions ?_ ?_
  · intro traffic ⟨haccounted, hanswered, haddressed, hunstuck, hinterval⟩ action _ after hmove
    exact ⟨haccounted.move hmove, hanswered.move hmove, haddressed.move hmove,
      hunstuck.move hmove, hmove.settings_eq.1.trans hinterval⟩
  · exact ⟨accounted_fresh config world sessionIds, answered_fresh config world sessionIds,
      addressed_fresh config world sessionIds, unstuck_fresh config world sessionIds, rfl⟩

/-- A session can have no queue without places. -/
theorem queueCapacity_pos_of_possible {bufferCapacity queueCapacity : Nat}
    (hpossible : sessionFailure? bufferCapacity queueCapacity = none) : 0 < queueCapacity := by
  rcases Nat.eq_zero_or_pos queueCapacity with rfl | hpos
  · unfold sessionFailure? at hpossible
    split at hpossible
    · cases hpossible
    · rw [if_pos rfl] at hpossible
      cases hpossible
  · exact hpos

/-- With capacities that no session can have there never is a task. -/
theorem tasks_eq_nil_run (shards : Shards) (config : ServerConfig)
    (hfatal : (sessionFailure? config.bufferCapacity config.queueCapacity).isSome = true)
    (world : World σ) (sessionIds : Nat → Uuid) (actions : List Action) :
    ((fresh config world sessionIds).run shards actions).registry.tasks = [] := by
  refine (run_induction (P := fun traffic => traffic.registry.tasks = [] ∧
    traffic.registry.queueCapacity = config.queueCapacity ∧
    traffic.registry.bufferCapacity = config.bufferCapacity) actions ?_ ⟨rfl, rfl, rfl⟩).1
  intro traffic ⟨hnone, hqueue, hbuffer⟩ action _ after hmove
  refine ⟨?_, hmove.settings_eq.2.1.trans hqueue, hmove.settings_eq.2.2.trans hbuffer⟩
  have hmissing : ∀ id, traffic.registry.task? id = none := fun id => by
    rw [Registry.task?, hnone, List.getElem?_nil]
  cases hmove with
  | opens n call hcall hstage hlookup hopen hsurvives =>
      rw [← hqueue, ← hbuffer] at hfatal
      rw [Registry.isFatal_eq_true_iff.mpr ⟨hlookup, hopen, hfatal⟩] at hsurvives
      cases hsurvives
  | spawns n call id =>
      rcases traffic.registry.spawn_cases id with hspawn | ⟨task, htask, -, -⟩
      · rw [hspawn]
        exact hnone
      · rw [hmissing] at htask
        cases htask
  | cancels n shard endpoint id =>
      rcases traffic.registry.cancel_cases id with hcancel | ⟨task, htask, -⟩
      · rw [hcancel]
        exact hnone
      · rw [hmissing] at htask
        cases htask
  | posts n call id task _ _ htask =>
      rw [hmissing] at htask
      cases htask
  | turns now id step task task' service hturned =>
      have htask := hturned.task_eq
      rw [hmissing] at htask
      cases htask
  | _ => exact hnone

/-- With an impossible interval a sample is lost by the first run of its task. -/
theorem not_delivered_of_impossible (shards : Shards) (config : ServerConfig)
    (hpossible : sessionFailure? config.bufferCapacity config.queueCapacity = none)
    (himpossible : isPossibleInterval config.checkpointInterval = false) (world : World σ)
    (sessionIds : Nat → Uuid) (endpoint : String) (sample : Sample) :
    ¬((fresh config world sessionIds).run shards
      [.arrive endpoint sample, .route 0, .route 0, .route 0, .route 0, .task 0 0 .start]).Delivered
        shards := by
  intro h
  have hlost := h.added_in_order 0
  have hcapacity : 0 < config.queueCapacity := queueCapacity_pos_of_possible hpossible
  simp [run, step, step?, fresh, route?, turn?, setStage, withRegistry, Registry.ofConfig,
    Registry.isFatal, Registry.lookup?, Registry.openSession, Registry.spawn, Registry.stepTask?,
    Registry.task?, Registry.setTask, Registry.send, SampleQueue.send, Task.spawn?, Task.start?,
    Service.step?, Service.step?.onTask, hpossible, hcapacity, himpossible, performed, postedTo,
    Task.begins, addedSamples] at hlost

/-- For all runs samples are delivered exactly once and in order, exactly when the checkpoint
interval is one that a clock can tick at, or no session can have the capacities that were asked
for. -/
theorem delivered_iff_possible (shards : Shards) (config : ServerConfig) (world : World σ)
    (sessionIds : Nat → Uuid) :
    (∀ actions, ((fresh config world sessionIds).run shards actions).Delivered shards) ↔
      isPossibleInterval config.checkpointInterval = true ∨
        (sessionFailure? config.bufferCapacity config.queueCapacity).isSome = true := by
  constructor
  · intro hdelivered
    cases hpossible : isPossibleInterval config.checkpointInterval with
    | true => exact .inl rfl
    | false =>
        cases hfailure : sessionFailure? config.bufferCapacity config.queueCapacity with
        | some failure => exact .inr rfl
        | none =>
            exact absurd (hdelivered _) (not_delivered_of_impossible shards config hfailure
              hpossible world sessionIds "" default)
  · intro hpossible actions
    obtain ⟨haccounted, hanswered, haddressed, hunstuck, hinterval⟩ :=
      invariant_run shards config world sessionIds actions
    refine delivered_of_possible shards haccounted hanswered haddressed hunstuck ?_
    intro id task htask
    rw [hinterval]
    refine hpossible.resolve_right fun hfatal => ?_
    rw [Registry.task?, tasks_eq_nil_run shards config hfatal world sessionIds actions,
      List.getElem?_nil] at htask
    cases htask

/-- With the default settings a sample that is routed is delivered. -/
theorem delivered_of_default :
    let traffic := (fresh {} (World.fresh MemoryStore.empty .none (fun _ => default) .ofNat)
      .ofNat).run .single
        [.arrive "car" (.lapping .one), .route 0, .route 0, .route 0, .route 0]
    traffic.posted = [⟨0, 0, .lapping .one⟩] ∧ traffic.Delivered .single :=
  ⟨rfl, (delivered_iff_possible .single {} _ _).mpr (.inl (by decide)) _⟩

/-- With an interval that is valid but too long for a clock, a sample for which routing returned
`true` is added by no session. -/
theorem not_delivered_of_endless_interval :
    let config : ServerConfig := { checkpointInterval := .ofSeconds (2 ^ 63) }
    let traffic := (fresh config (World.fresh MemoryStore.empty .none (fun _ => default) .ofNat)
      .ofNat).run .single
        [.arrive "car" (.lapping .one), .route 0, .route 0, .route 0, .route 0, .task 0 0 .start]
    config.validate = .ok () ∧ traffic.calls.map RouteCall.stage = [.returned true] ∧
      ¬traffic.Delivered .single :=
  ⟨rfl, rfl, not_delivered_of_impossible .single _ (by decide) (by decide) _ _ "car" _⟩

end Traffic

end RaceIngest
