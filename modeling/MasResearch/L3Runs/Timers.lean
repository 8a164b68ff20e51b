import MasResearch.L3Runs.Plays

/-!
# Timers of registered tasks

* `registered_exact`: while only replies to the coordinator's own requests arrive,
  every registered state splits the plan's ids into pending and resolved ones, and
  a pending subtask has a deadline or a back-off, never both, exactly if it was
  published.
* `tick_leaves_timer`: whatever arrives, a task that is still registered after a
  completed tick has a pending subtask with a timer and is within the global
  deadline. The pending subtask is a least one in the dependency order
  (`exists_ready`): its dependencies are resolved, so `_advance` has published it.
* `advance_terminates`: on every state it can meet, at any clock reading and under any
  timeouts, the `while` loop of `_advance` ends when no request raises, and leaves
  nothing to do. The measure is `potential`: what a subtask may still cost in requests,
  expiries and retries.
-/
namespace MasResearch.L3

open MasResearch.L1 MasResearch.L2 Relation TaskState

/-- The exact timer discipline, with what ties it to the requests made. -/
theorem taskInv_exact {A : Assumptions} (hA : A.Own) (env : Env) (cfg : Config) :
    TaskInv A env cfg (fun s h => s.Exact ∧ Requested s h) fun _ => True where
  submitted task now _ := ⟨exact_submitted task now, fun _ _ _ _ _ hm => by cases hm⟩
  resumed task results now _ := ⟨exact_resumed task results now, fun _ _ _ _ _ hm => by cases hm⟩
  move h _ hm _ := ⟨Exact.move h.1 hm, h.2.move hm⟩
  routed := by
    intro now s h m jobs s' hI _ hans hr
    refine ⟨?_, (hI.2.mono (Routed.published_subset hr)).cons (by simp)⟩
    cases hr with
    | ignored => exact hI.1
    | informed _ hp _ _ => exact hI.1.informed hp _ _
    | @refused sid hsid hp _ =>
      -- the refused subtask was published: the reply answers one of its requests
      obtain ⟨channel, sub, results, request, t, hpub, -, he⟩ := hA _ _ _ hans
      obtain ⟨h1, h2⟩ := hI.2 _ _ _ _ _ hpub
      obtain rfl : sub.id = sid := by simpa [h1, hsid] using he.symm
      exact hI.1.countMessage.retried hp h2 _ _
  finalizing _ h _ _ := ⟨h.1, h.2.cons (by simp)⟩
  recorded h he := ⟨h.1, h.2.cons (by rintro _ _ _ _ _ rfl; cases he)⟩
  history _ := trivial
  empty := trivial
  quiet _ _ := trivial

/-- **Every registered state is exact.** -/
theorem registered_exact (env : Env) (cfg : Config) {c : Coordinator}
    (hr : (runs .ownReplies env cfg).Reachable c) {tid : String} {s : TaskState}
    (hs : c.tasks.get? tid = some s) :
    (∀ sid ∈ s.pending, sid ∉ s.results) ∧
    (∀ sid, sid ∈ s.plan.ids ↔ sid ∈ s.pending ∨ sid ∈ s.results) ∧
    (∀ sid ∈ s.results, sid ∉ s.deadlines ∧ sid ∉ s.retryAt) ∧
    (∀ sid ∈ s.pending, sid ∉ s.published → sid ∉ s.deadlines ∧ sid ∉ s.retryAt) ∧
    (∀ sid ∈ s.pending, sid ∈ s.published →
      (sid ∈ s.deadlines ∧ sid ∉ s.retryAt) ∨ (sid ∉ s.deadlines ∧ sid ∈ s.retryAt)) ∧
    (∀ sid, s.retries sid ≤ retryMax) ∧
    (∀ sid ∈ s.pending, ∀ reason now o,
      ((scheduleRetryOrFail sid reason now).run ⟨s, o⟩).1 = .ok ()) := by
  have h := ((taskInv_exact own_ownReplies env cfg).registered hr hs).1
  have hout : ∀ sid, sid ∈ s.results → sid ∉ s.pending := fun sid hres hp => h.disjoint sid hp hres
  refine ⟨h.disjoint, fun sid => by rw [h.plan_eq]; exact h.cover sid, ?_, h.idle, ?_, h.retries, ?_⟩
  · intro sid hres
    exact ⟨fun hd => hout sid hres (h.timers sid (.inl hd)), fun hd => hout sid hres (h.timers sid (.inr hd))⟩
  · intro sid hp hpub
    rcases h.armed sid hp hpub with hd | hd
    · exact .inl ⟨hd, h.single sid hd⟩
    · exact .inr ⟨fun hd' => h.single sid hd' hd, hd⟩
  · intro sid hp reason now o
    obtain ⟨sub, -, -, hg⟩ := h.get? hp
    rw [run_scheduleRetryOrFail (c := ⟨s, o⟩) hg]

/-- A task with one audio file to transcribe. -/
def lecture : Task where
  id := "t1"
  requestedOutputs := [.f1Transcribe]
  conversationId := "conv-t1"
  documents := [{ id := "d1", taskId := "t1", documentType := .audio, filePath := "a.wav" }]

/-- The transcriber's answer for `lecture`. -/
def transcript : Message where
  messageId := "msg-1"
  performative := .inform
  sender := "TranscriberAgent"
  receiver := "CoordinatorAgent"
  taskId := "t1"
  conversationId := "conv-t1-F1"
  content := []
  timestamp := ""
  subtaskId := some "st-t1-F1"

theorem reachable_lecture (A : Assumptions) (hs : A.submits lecture) (ht : ∀ h, A.timely 0 h) :
    (runs A Env.faultless {}).Reachable (next Env.faultless {} Coordinator.idle (.submit lecture 0)) :=
  LTS.Reachable.step (l := .submit lecture 0) ⟨_, [], initial_idle, .nil _⟩
    ⟨⟨⟨hs, rfl, rfl⟩, fun _ => ht _⟩, rfl⟩

/-- `lecture` with all that is made of its transcript. -/
def workshop : Task :=
  { lecture with requestedOutputs := [.f1Transcribe, .f3Summarize, .f4Test, .f5Terms, .f6Recommend] }

/-- A reply to the request for an operation of `workshop`. -/
def replyOn (messageId : String) (op : Operation) (performative : Performative) : Message :=
  { transcript with messageId := messageId, performative := performative, subtaskId := some (subtaskIdFor "t1" op) }

/-- The transcript comes, and the summarizer refuses. -/
def opening : Script :=
  [(some (replyOn "msg-1" .f1Transcribe .inform), 1), (some (replyOn "msg-2" .f3Summarize .refuse), 2)]

def opened : Coordinator := played Env.faultless {} (.submit workshop 0) opening

theorem plays_opening : ownTests.plays Env.faultless {} "t1" (.submit workshop 0) opening = true := by
  decide +kernel

/-- The request for the summary of a transcript. -/
def asksSummary : Event → Bool
  | .published _ sub _ _ _ => sub.id = "st-t1-F3" ∧ sub.dependsOn = ["st-t1-F1"]
  | _ => false

theorem exists_asksSummary {h : List Event} (ha : h.any asksSummary = true) :
    ∃ channel sub results request t, Event.published channel sub results request t ∈ h ∧
      sub.id = "st-t1-F3" ∧ sub.dependsOn = ["st-t1-F1"] := by
  obtain ⟨e, he, hask⟩ := List.any_eq_true.mp ha
  cases e with
  | published channel sub results request t =>
    simp only [asksSummary, decide_eq_true_eq] at hask
    exact ⟨channel, sub, results, request, t, he, hask⟩
  | _ => cases hask

/-- F1 is resolved, F3 in its back-off, F5 in flight, and F4 was not asked for. -/
def isOpened (s : TaskState) : Bool :=
  "st-t1-F1" ∈ s.results ∧ ("st-t1-F3" ∈ s.pending ∧ "st-t1-F3" ∈ s.published ∧ "st-t1-F3" ∈ s.retryAt) ∧
    ("st-t1-F5" ∈ s.pending ∧ "st-t1-F5" ∈ s.published ∧ "st-t1-F5" ∈ s.deadlines) ∧
    "st-t1-F4" ∈ s.pending ∧ "st-t1-F4" ∉ s.published

theorem registered_exact_opened : ∃ s, opened.tasks.get? "t1" = some s ∧
    ("st-t1-F1" ∉ s.pending ∧ "st-t1-F1" ∉ s.deadlines ∧ "st-t1-F1" ∉ s.retryAt) ∧
    ("st-t1-F3" ∉ s.deadlines ∧ "st-t1-F3" ∈ s.retryAt ∧ s.retries "st-t1-F3" ≤ retryMax) ∧
    ("st-t1-F5" ∈ s.deadlines ∧ "st-t1-F5" ∉ s.retryAt) ∧ "st-t1-F4" ∉ s.deadlines ∧ "st-t1-F4" ∉ s.retryAt := by
  obtain ⟨s, hs, hopen⟩ := (Option.any_eq_true _ _).mp
    (show (opened.tasks.get? "t1").any isOpened = true by decide +kernel)
  simp only [isOpened, decide_eq_true_eq] at hopen
  obtain ⟨h1, ⟨hp3, hpub3, ht3⟩, ⟨hp5, hpub5, ht5⟩, hp4, hpub4⟩ := hopen
  have hr : (runs .ownReplies Env.faultless {}).Reachable opened := LTS.reachable_foldl initial_idle
    ((sound_ownTests (fun _ _ _ h => h) fun _ _ => trivial).admits_submit trivial plays_opening)
  obtain ⟨hdisjoint, -, hresolved, hidle, harmed, hret, -⟩ := registered_exact Env.faultless {} hr hs
  have h3 := (harmed _ hp3 hpub3).resolve_left fun h => h.2 ht3
  have h5 := (harmed _ hp5 hpub5).resolve_right fun h => h.1 ht5
  exact ⟨s, hs, ⟨fun h => hdisjoint _ h h1, hresolved _ h1⟩, ⟨h3.1, h3.2, hret _⟩, h5, hidle _ hp4 hpub4⟩

/-! ## Deadlock freedom -/

/-- A completed tick leaves every registered task waiting. -/
theorem waiting_of_tick (env : Env) (cfg : Config) {c : Coordinator} (h : Keyed c) (batch : Batch) (now : ℚ)
    (hok : ((L2.tick env cfg batch now).run c).1 = .ok ()) {tid : String} {s : TaskState}
    (hs : (next env cfg c (.tick batch now)).tasks.get? tid = some s) : Waiting cfg now s := by
  rw [next, Action.coroutine] at hs
  rcases tick_cases env cfg now batch c h with ⟨e, m, -, hrun⟩ | ⟨replies, m, c', -, hrun, -, hslot⟩
  · rw [hrun] at hok; cases hok
  · rw [hrun] at hs
    obtain ⟨jobs, l1, h1, hk1⟩ := run_slotRoutes env now
      (replies.filter fun r => r.taskId = tid) (l := c.slot tid) (h tid)
    obtain ⟨l2, h2, -, hw⟩ := run_slotTick env cfg now h1 hk1
    have hst : c'.tasks.get? tid = l2.state := by
      have hstate := congrArg Slot.state (hslot tid)
      rwa [h2] at hstate
    exact hw s (hst ▸ hs)

/-- A waiting task has a timer: its least pending subtask was published. -/
theorem timer_of_waiting {cfg : Config} {now : ℚ} {s : TaskState} (h : Waiting cfg now s) :
    ∃ sid ∈ s.pending, sid ∈ s.deadlines ∨ sid ∈ s.retryAt := by
  obtain ⟨sub, hsub, hp, hdeps⟩ := exists_ready (S := s.pending) (fun _ hk => h.wf.mem_ids hk) h.pending
  refine ⟨sub.id, hp, h.wf.armed sub.id hp ?_⟩
  by_contra hpub
  refine h.settled.ready sub (by rw [h.wf.plan_eq]; exact hsub) hp hpub fun dep hd => ?_
  rcases (h.wf.cover dep).mp (dep_mem_ids hsub hd) with hpend | hres
  · exact absurd hpend (hdeps dep hd)
  · exact hres

/-- **Deadlock freedom.** -/
theorem tick_leaves_timer (env : Env) (cfg : Config) {c : Coordinator} (hr : (runs .any env cfg).Reachable c)
    (batch : Batch) (now : ℚ) (hok : ((L2.tick env cfg batch now).run c).1 = .ok ()) {tid : String}
    {s : TaskState} (hs : (next env cfg c (.tick batch now)).tasks.get? tid = some s) :
    (∃ sid ∈ s.pending, sid ∈ s.deadlines ∨ sid ∈ s.retryAt) ∧ now - s.startedAt ≤ cfg.globalDeadlineSec := by
  have hw := waiting_of_tick env cfg (keyed_of_reachable hr) batch now hok hs
  exact ⟨timer_of_waiting hw, hw.young⟩

theorem tick_leaves_timer_lecture :
    ∃ s, (next Env.faultless {} (next Env.faultless {} Coordinator.idle (.submit lecture 0))
        (.tick (.entries []) 1)).tasks.get? "t1" = some s ∧
      ∃ sid ∈ s.pending, sid ∈ s.deadlines ∨ sid ∈ s.retryAt := by
  obtain ⟨s, hs⟩ := Option.isSome_iff_exists.mp
    (show ((next Env.faultless {} (next Env.faultless {} Coordinator.idle (.submit lecture 0))
      (.tick (.entries []) 1)).tasks.get? "t1").isSome = true by decide +kernel)
  exact ⟨s, hs, (tick_leaves_timer Env.faultless {} (reachable_lecture _ trivial fun _ => trivial)
    (.entries []) 1 (by decide +kernel) hs).1⟩

/-! ## The loop of `_advance` -/

/-- The states that `_advance` may meet, in any environment: those a task starts in, those
registered between the transitions of a run, and what replies, stale ones too, and
completed advances make of them. -/
inductive Reached : TaskState → Prop
  | submitted (task : Task) (now : ℚ) : Reached (TaskState.submitted task now)
  | resumed (task : Task) (results : Dict String Content) (now : ℚ) : Reached (TaskState.resumed task results now)
  | registered {env : Env} {cfg : Config} {c : Coordinator} {tid : String} {s : TaskState}
      (hr : (runs .any env cfg).Reachable c) (hs : c.tasks.get? tid = some s) : Reached s
  | routed {s : TaskState} (h : Reached s) (env : Env) (reply : Message) (now : ℚ) (o : Outside) :
      Reached ((routeReply env reply now).run ⟨s, o⟩).2.state
  | advanced {s : TaskState} {env : Env} {cfg : Config} {now : ℚ} {o : Outside} {c : Ctx} (h : Reached s)
      (hok : (advance env cfg now).run ⟨s, o⟩ = (.ok (), c)) : Reached c.state

theorem Reached.wf {s : TaskState} (h : Reached s) : s.Wf := by
  induction h with
  | submitted task now => exact (exact_submitted task now).toWf
  | resumed task results now => exact (exact_resumed task results now).toWf
  | registered hr hs => exact (keyed_of_reachable hr _ _ hs).1
  | routed _ env reply now o ih =>
    obtain ⟨jobs, s', hrun, hrouted⟩ := run_routeReply env now reply ih o
    rw [hrun]
    exact Wf.routed ih hrouted
  | @advanced s env cfg now o c _ hok ih =>
    rcases advance_run env cfg now ⟨s, o⟩ ih with ⟨c', hrun, hmoves, -⟩ | ⟨e, c', m, hrun, -, -⟩
    · cases hrun.symm.trans hok
      exact Exec.stable_star wf_stable hmoves ih
    · cases hrun.symm.trans hok

/-- **Termination of `_advance`.** -/
theorem advance_terminates {s : TaskState} (h : Reached s) {env : Env}
    (hbus : ∀ history sid, env.raises history (.publish sid) = false) (cfg : Config) (now : ℚ) (o : Outside) :
    ∃ c', (advance env cfg now).run ⟨s, o⟩ = (.ok (), c') ∧
      (∀ rounds, roundBound s.plan ≤ rounds →
        (Exec.whileChanged (advanceRound env cfg now) .loops rounds).run ⟨s, o⟩ = (.ok (), c')) ∧
      (∀ sub ∈ c'.state.plan.subtasks, sub.id ∈ c'.state.pending → sub.id ∉ c'.state.published →
        ∃ dep ∈ sub.dependsOn, dep ∉ c'.state.results) ∧
      (∀ sid deadline, c'.state.deadlines.get? sid = some deadline → ¬ deadline < now) ∧
      (∀ sid due, c'.state.retryAt.get? sid = some due → ¬ due ≤ now) := by
  rcases advance_run env cfg now ⟨s, o⟩ h.wf with ⟨c', hrun, -, hsettled⟩ | ⟨e, c', m, -, -, hf⟩
  · refine ⟨c', hrun, fun rounds hle => Exec.whileChanged_mono hrun hle, fun sub hsub hp hpub => ?_,
      fun sid d hd => not_lt.mpr (hsettled.expired sid d hd), fun sid t ht => not_le.mpr (hsettled.due sid t ht)⟩
    have hdeps := hsettled.ready sub hsub hp hpub
    unfold DepsResolved at hdeps
    push Not at hdeps
    exact hdeps
  · -- a fault is a request that raised
    exfalso
    cases hf with
    | ready _ _ _ _ _ hraise => rw [hbus] at hraise; cases hraise
    | again _ _ _ hraise => rw [hbus] at hraise; cases hraise

/-- Deadlines that have passed before they are set. -/
def Config.overdue : Config := { agentTimeouts := (∅ : Dict AgentName ℚ).set .transcriber (-1) }

theorem advance_terminates_lecture :
    ∃ c', (advance Env.faultless Config.overdue 0).run
        ⟨TaskState.submitted lecture 0, Coordinator.idle.outside "t1"⟩ = (.ok (), c') ∧
      ∀ sid deadline, c'.state.deadlines.get? sid = some deadline → ¬ deadline < 0 := by
  obtain ⟨c', hrun, -, -, hdeadlines, -⟩ := advance_terminates (.submitted lecture 0)
    (show ∀ history sid, Env.faultless.raises history (.publish sid) = false from fun _ _ => rfl) Config.overdue 0
    (Coordinator.idle.outside "t1")
  exact ⟨c', hrun, hdeadlines⟩

end MasResearch.L3
