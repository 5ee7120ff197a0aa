import RaceIngest.Proofs.Registry.Moves

/-!
# What callers know and answer

A call that routes a sample queues it once and returns `true`, or does not queue it and returns
`false`. Whatever task it means along the way was opened for its own endpoint, and so was the task
that the table gives for an endpoint: a task never changes its endpoint, and the table only ever
gets entries of tasks that are opened for them.

## Main results

* `Traffic.Answered.move`: the calls that returned `true` are those that posted their sample.
* `Traffic.Addressed.move`: tables, calls and posted samples mean tasks of the right endpoint.
-/

namespace RaceIngest

namespace Traffic

variable {σ : Type}

/-! ## Calls and their answers -/

/-- What one move does to the calls that route a sample and to what they posted. -/
inductive CallsMove (before after : Traffic σ) : Prop where
  | rests (hcalls : after.calls = before.calls) (hposted : after.posted = before.posted)
  | arrives (endpoint : String) (sample : Sample)
      (hcalls : after.calls = before.calls ++ [{ endpoint := endpoint, sample := sample }])
      (hposted : after.posted = before.posted)
  | goesOn (n : Nat) (call : RouteCall) (stage : RouteStage)
      (hcall : before.calls[n]? = some call) (hbefore : call.stage ≠ .returned true)
      (hstage : stage ≠ .returned true)
      (hcalls : after.calls = before.calls.set n { call with stage })
      (hposted : after.posted = before.posted)
  | posts (n : Nat) (call : RouteCall) (id : TaskId) (hcall : before.calls[n]? = some call)
      (hstage : call.stage = .sending id)
      (hcalls : after.calls = before.calls.set n { call with stage := .returned true })
      (hposted : after.posted = before.posted ++ [⟨n, id, call.sample⟩])

theorem Move.callsMove {shards : Shards} {traffic after : Traffic σ} {action : Action}
    (h : traffic.Move shards action after) : traffic.CallsMove after := by
  cases h with
  | arrives endpoint sample => exact .arrives endpoint sample rfl rfl
  | finds n call id hcall hstage =>
      exact .goesOn n call _ hcall (by rcases hstage with h | h <;> simp [h]) (by simp) rfl rfl
  | misses n call hcall hstage | isRefused n call hcall hstage | opens n call hcall hstage
  | dies n call hcall hstage | spawns n call _ hcall hstage | drops n call _ hcall hstage =>
      exact .goesOn n call _ hcall (by simp [hstage]) (by simp) rfl rfl
  | posts n call id task hcall hstage => exact .posts n call id hcall hstage rfl rfl
  | turns | beginsClose | refuses | passes | awaits | cancels | reopens => exact .rests rfl rfl

/-- No move changes the endpoint that a call is for. -/
theorem CallsMove.exists_call {before after : Traffic σ} (h : before.CallsMove after) {n : Nat}
    {call : RouteCall} (hcall : before.calls[n]? = some call) :
    ∃ call', after.calls[n]? = some call' ∧ call'.endpoint = call.endpoint := by
  have hlt : n < before.calls.length := (List.getElem?_eq_some_iff.mp hcall).1
  have hset : ∀ m other stage, before.calls[m]? = some other →
      ∃ call', (before.calls.set m { other with stage })[n]? = some call' ∧
        call'.endpoint = call.endpoint := by
    intro m other stage hother
    by_cases hm : m = n
    · subst hm
      rw [hcall, Option.some.injEq] at hother
      exact ⟨{ other with stage }, List.getElem?_set_self hlt, by rw [hother]⟩
    · exact ⟨call, by rw [List.getElem?_set_ne hm]; exact hcall, rfl⟩
  cases h with
  | rests hcalls => exact ⟨call, by rw [hcalls]; exact hcall, rfl⟩
  | arrives endpoint sample hcalls =>
      exact ⟨call, by rw [hcalls, List.getElem?_append_left hlt]; exact hcall, rfl⟩
  | goesOn m other stage hother _ _ hcalls =>
      rw [hcalls]
      exact hset m other stage hother
  | posts m other id hother _ hcalls =>
      rw [hcalls]
      exact hset m other _ hother

/-- The calls that returned `true` are those that posted their sample, each of them once. -/
structure Answered (traffic : Traffic σ) : Prop where
  posted_call : ∀ posted ∈ traffic.posted, ∃ call, traffic.calls[posted.call]? = some call ∧
    call.stage = .returned true ∧ call.sample = posted.sample
  accepted_posted : ∀ n call, traffic.calls[n]? = some call → call.stage = .returned true →
    n ∈ traffic.posted.map Posted.call
  posted_once : (traffic.posted.map Posted.call).Nodup

theorem Answered.move {shards : Shards} {traffic after : Traffic σ} {action : Action}
    (h : traffic.Answered) (hmove : traffic.Move shards action after) : after.Answered := by
  cases hmove.callsMove with
  | rests hcalls hposted =>
      refine ⟨?_, ?_, ?_⟩
      · rw [hposted, hcalls]
        exact h.posted_call
      · rw [hposted, hcalls]
        exact h.accepted_posted
      · rw [hposted]
        exact h.posted_once
  | arrives endpoint sample hcalls hposted =>
      refine ⟨?_, ?_, ?_⟩
      · rw [hposted, hcalls]
        intro posted hmem
        obtain ⟨call, hcall, hrest⟩ := h.posted_call posted hmem
        have hlt := (List.getElem?_eq_some_iff.mp hcall).1
        exact ⟨call, by rw [List.getElem?_append_left hlt]; exact hcall, hrest⟩
      · rw [hposted, hcalls]
        intro n call hcall hstage
        rcases getElem?_concat_cases hcall with hold | ⟨-, rfl⟩
        · exact h.accepted_posted n call hold hstage
        · simp at hstage
      · rw [hposted]
        exact h.posted_once
  | goesOn n call stage hcall hbefore hstage hcalls hposted =>
      refine ⟨?_, ?_, ?_⟩
      · rw [hposted, hcalls]
        intro posted hmem
        obtain ⟨other, hother, hreturned, hsample⟩ := h.posted_call posted hmem
        have hne : n ≠ posted.call := by
          rintro rfl
          rw [hcall, Option.some.injEq] at hother
          exact hbefore (hother ▸ hreturned)
        exact ⟨other, by rw [List.getElem?_set_ne hne]; exact hother, hreturned, hsample⟩
      · rw [hposted, hcalls]
        intro m other hother hreturned
        rcases getElem?_set_cases hother with ⟨-, rfl⟩ | ⟨-, hold⟩
        · exact absurd hreturned hstage
        · exact h.accepted_posted m other hold hreturned
      · rw [hposted]
        exact h.posted_once
  | posts n call id hcall hstage hcalls hposted =>
      have hnew : n ∉ traffic.posted.map Posted.call := by
        intro hmem
        obtain ⟨posted, hold, rfl⟩ := List.mem_map.mp hmem
        obtain ⟨other, hother, hreturned, -⟩ := h.posted_call posted hold
        rw [hcall, Option.some.injEq] at hother
        simp [← hother, hstage] at hreturned
      refine ⟨?_, ?_, ?_⟩
      · rw [hposted, hcalls]
        intro posted hmem
        rcases List.mem_append.mp hmem with hold | hnow
        · obtain ⟨other, hother, hrest⟩ := h.posted_call posted hold
          have hne : n ≠ posted.call := by
            rintro rfl
            exact hnew (List.mem_map.mpr ⟨posted, hold, rfl⟩)
          exact ⟨other, by rw [List.getElem?_set_ne hne]; exact hother, hrest⟩
        · rw [List.mem_singleton.mp hnow]
          exact ⟨{ call with stage := .returned true },
            by rw [List.getElem?_set_self', hcall]; rfl, rfl, rfl⟩
      · rw [hposted, hcalls, List.map_append]
        intro m other hother hreturned
        rcases getElem?_set_cases hother with ⟨rfl, -⟩ | ⟨-, hold⟩
        · exact List.mem_append.mpr (.inr (by simp))
        · exact List.mem_append.mpr (.inl (h.accepted_posted m other hold hreturned))
      · rw [hposted, List.map_append]
        refine List.nodup_append.mpr ⟨h.posted_once, by simp, ?_⟩
        intro m hm k hk heq
        simp only [List.map_cons, List.map_nil, List.mem_singleton] at hk
        exact hnew (hk ▸ heq ▸ hm)

/-! ## Sessions and the endpoints they were opened for -/

/-- The table, the callers and the posted samples mean tasks of the right endpoint. -/
structure Addressed (traffic : Traffic σ) : Prop where
  table_addressed : ∀ entry ∈ traffic.registry.table,
    traffic.registry.endpointOf? entry.2 = some entry.1
  call_addressed : ∀ (n : Nat) (call : RouteCall) (id : TaskId), traffic.calls[n]? = some call →
    call.stage = .spawning id ∨ call.stage = .sending id →
    traffic.registry.endpointOf? id = some call.endpoint
  posted_addressed : ∀ posted ∈ traffic.posted, ∃ call,
    traffic.calls[posted.call]? = some call ∧
      traffic.registry.endpointOf? posted.task = some call.endpoint

/-- A call that goes on to a task of its endpoint leaves all calls addressed. -/
theorem Addressed.call_set {before after : Traffic σ} (h : before.Addressed)
    (htasks : before.TasksMove after) {n : Nat} {call : RouteCall} {stage : RouteStage}
    (hcalls : after.calls = before.calls.set n { call with stage })
    (hstage : ∀ id, stage = .spawning id ∨ stage = .sending id →
      after.registry.endpointOf? id = some call.endpoint) :
    ∀ (m : Nat) (other : RouteCall) (id : TaskId), after.calls[m]? = some other →
      other.stage = .spawning id ∨ other.stage = .sending id →
      after.registry.endpointOf? id = some other.endpoint := by
  intro m other id hother hknows
  rw [hcalls] at hother
  rcases getElem?_set_cases hother with ⟨-, rfl⟩ | ⟨-, hold⟩
  · exact hstage id hknows
  · exact htasks.endpointOf?_eq (h.call_addressed m other id hold hknows)

theorem Addressed.move {shards : Shards} {traffic after : Traffic σ} {action : Action}
    (h : traffic.Addressed) (hmove : traffic.Move shards action after) : after.Addressed := by
  have htasks := hmove.tasksMove
  have hsending : ∀ id endpoint, after.registry.endpointOf? id = some endpoint →
      ∀ other, RouteStage.sending id = .spawning other ∨ RouteStage.sending id = .sending other →
      after.registry.endpointOf? other = some endpoint := by
    intro id endpoint hid other hknows
    simp only [reduceCtorEq, RouteStage.sending.injEq, false_or] at hknows
    rw [← hknows]
    exact hid
  refine ⟨?_, ?_, ?_⟩
  · intro entry hentry
    rcases hmove.mem_table hentry with hold | hnew
    · exact htasks.endpointOf?_eq (h.table_addressed entry hold)
    · exact hnew
  · cases hmove with
    | arrives endpoint sample =>
        intro m other id hother hknows
        rcases getElem?_concat_cases hother with hold | ⟨-, rfl⟩
        · exact h.call_addressed m other id hold hknows
        · simp at hknows
    | finds n call id hcall hstage hfound =>
        have hid := h.table_addressed (call.endpoint, id) (Registry.mem_table_of_lookup? hfound)
        exact h.call_set htasks rfl (hsending id _ (htasks.endpointOf?_eq hid))
    | misses n call hcall hstage | isRefused n call hcall hstage | dies n call hcall hstage
    | drops n call _ hcall hstage | posts n call _ _ hcall hstage =>
        exact h.call_set htasks rfl (by simp)
    | opens n call hcall hstage =>
        refine h.call_set htasks rfl ?_
        intro id hknows
        simp only [reduceCtorEq, RouteStage.spawning.injEq, or_false] at hknows
        rw [← hknows]
        simp [Registry.endpointOf?, Registry.task?, Registry.opened, Registry.newTask, setStage,
          withRegistry]
    | spawns n call id hcall hstage =>
        have hid := h.call_addressed n call id hcall (.inl hstage)
        exact h.call_set htasks rfl (hsending id _ (htasks.endpointOf?_eq hid))
    | turns | beginsClose | refuses | passes | awaits | cancels | reopens =>
        exact fun m other id hother hknows =>
          htasks.endpointOf?_eq (h.call_addressed m other id hother hknows)
  · have hold : ∀ posted ∈ traffic.posted, ∃ call, after.calls[posted.call]? = some call ∧
        after.registry.endpointOf? posted.task = some call.endpoint := by
      intro posted hmem
      obtain ⟨call, hcall, hid⟩ := h.posted_addressed posted hmem
      obtain ⟨call', hcall', hendpoint⟩ := hmove.callsMove.exists_call hcall
      exact ⟨call', hcall', by rw [hendpoint]; exact htasks.endpointOf?_eq hid⟩
    cases hmove with
    | posts n call id task hcall hstage =>
        intro posted hmem
        rcases List.mem_append.mp hmem with hbefore | hnew
        · exact hold posted hbefore
        · rw [List.mem_singleton.mp hnew]
          have hid := h.call_addressed n call id hcall (.inr hstage)
          exact ⟨_, getElem?_calls_setStage _ hcall _, htasks.endpointOf?_eq hid⟩
    | _ => exact hold

theorem answered_fresh (config : ServerConfig) (world : World σ) (sessionIds : Nat → Uuid) :
    (fresh config world sessionIds).Answered where
  posted_call := by simp [fresh]
  accepted_posted := by simp [fresh]
  posted_once := by simp [fresh]

theorem addressed_fresh (config : ServerConfig) (world : World σ) (sessionIds : Nat → Uuid) :
    (fresh config world sessionIds).Addressed where
  table_addressed := by simp [fresh, Registry.ofConfig]
  call_addressed := by simp [fresh]
  posted_addressed := by simp [fresh]

end Traffic

end RaceIngest
