import MasResearch.L3Runs.Histories
import MasResearch.L3Runs.Timers

/-!
# A stale refusal re-requests a subtask before its dependencies resolve

`_route_reply` tests that the subtask is pending, not that this `TaskState` ever
published it (src/agents/coordinator.py:224-232). After a restart `_resume` starts
with an empty `published` set while the stream may still hold a REFUSE for a
subtask of the rebuilt plan. Routing it arms `retry_at`, and `_republish_due`
publishes without looking at the dependencies (src/agents/coordinator.py:292-299).
`_advance` never lets that happen on its own path (src/agents/coordinator.py:268-269).

Counterexample (`stale_refusal_requests_early`): a task of F1 and F3 is resumed
with no results at 0, a REFUSE for F3 arrives at 1 and an empty tick follows at 2:
F3 is requested while F1 is pending.

`requests_wait`: in every run in which no REFUSE is routed to a pending,
unpublished subtask with an unresolved dependency, every request is made with all
dependencies resolved.
-/
namespace MasResearch.Bugs.StaleRefusal

open MasResearch.L1 MasResearch.L2 MasResearch.L3 Relation TaskState

/-! ## Counterexample -/

def task : Task where
  id := "t1"
  requestedOutputs := [.f1Transcribe, .f3Summarize]
  conversationId := "conv-t1"
  documents := [{ id := "d1", taskId := "t1", documentType := .audio, filePath := "a.wav" }]

/-- The refusal of F3 that the previous process had asked for. -/
def refusal : Message where
  messageId := "msg-old"
  performative := .refuse
  sender := "SummarizerAgent"
  receiver := "CoordinatorAgent"
  taskId := "t1"
  conversationId := "conv-t1-F3"
  content := [("reason", .str "no chunks")]
  timestamp := ""
  subtaskId := some "st-t1-F3"

def trace : List Action :=
  [.resume task ∅ 0, .tick (.entries [{ entryId := "1-0", payload := some refusal }]) 1, .tick (.entries []) 2]

def final : Coordinator := trace.foldl (next Env.faultless {}) Coordinator.idle

/-- A request made with an unresolved dependency. -/
def early : Event → Bool
  | .published _ sub results _ _ => ¬ DepsResolved sub results
  | _ => false

theorem reachable_final : (runs .any Env.faultless {}).Reachable final :=
  LTS.reachable_foldl initial_idle
    ⟨⟨⟨trivial, rfl, rfl⟩, fun _ => trivial⟩,
      ⟨fun _ _ _ => routable_any _ _ _ _, fun _ => trivial⟩,
      ⟨fun _ _ _ => routable_any _ _ _ _, fun _ => trivial⟩, trivial⟩

/-- **Counterexample.** -/
theorem stale_refusal_requests_early :
    (runs .any Env.faultless {}).Reachable final ∧
      ∃ channel sub results request t,
        Event.published channel sub results request t ∈ (final.outside "t1").history ∧
          ¬ DepsResolved sub results := by
  refine ⟨reachable_final, ?_⟩
  have h : (final.outside "t1").history.any early = true := by decide +kernel
  obtain ⟨e, he, hearly⟩ := List.any_eq_true.mp h
  cases e with
  | published channel sub results request t =>
    exact ⟨channel, sub, results, request, t, he, by simpa [early] using hearly⟩
  | _ => cases hearly

/-! ## When requests do wait -/

/-- A pending subtask that was not published and waits for a dependency. -/
def Unready (s : TaskState) (sid : String) : Prop :=
  sid ∈ s.pending ∧ sid ∉ s.published ∧ ∃ sub ∈ s.plan.subtasks, sub.id = sid ∧ ¬ DepsResolved sub s.results

/-- No refusal is routed to such a subtask. Anything else may arrive. -/
def noStaleRefusal : Assumptions where
  reply s _ m := m.performative = .refuse → ∀ sid, m.subtaskId = some sid → ¬ Unready s sid

/-- Timers belong to subtasks whose dependencies are resolved. -/
def Backed (s : TaskState) : Prop :=
  ∀ sub ∈ s.plan.subtasks, sub.id ∈ s.deadlines ∨ sub.id ∈ s.retryAt → DepsResolved sub s.results

def Waited (h : List Event) : Prop := ∀ channel sub results request t,
  Event.published channel sub results request t ∈ h → DepsResolved sub results

theorem Waited.cons {h : List Event} (hw : Waited h) {e : Event}
    (he : ∀ channel sub results request t, e ≠ .published channel sub results request t) :
    Waited (e :: h) := by
  intro channel sub r request t hm
  rcases List.mem_cons.mp hm with rfl | hm
  · exact absurd rfl (he _ _ _ _ _)
  · exact hw _ _ _ _ _ hm

/-- A step that arms no timer except for subtasks with resolved dependencies. -/
theorem Backed.step {s s' : TaskState} (hb : Backed s) (hp : s'.plan = s.plan)
    (hx : Extends s.results s'.results)
    (ht : ∀ sub ∈ s.plan.subtasks, sub.id ∈ s'.deadlines ∨ sub.id ∈ s'.retryAt →
      (sub.id ∈ s.deadlines ∨ sub.id ∈ s.retryAt) ∨ DepsResolved sub s.results) : Backed s' := by
  intro sub hs htimer
  rw [hp] at hs
  have hd : DepsResolved sub s.results := (ht sub hs htimer).elim (hb sub hs) id
  exact fun dep hdep => hx.mem (hd dep hdep)

/-- A request for a subtask with resolved dependencies arms its own timer. -/
theorem Backed.published {c : Ctx} (hb : Backed c.state) (hplan : c.state.plan = buildPlan c.state.task)
    {sub : Subtask} (hs : sub ∈ c.state.plan.subtasks) (hd : DepsResolved sub c.state.results) (env : Env)
    (cfg : Config) (now : ℚ) : Backed (c.published env cfg now sub).state := by
  intro sub' hs' ht
  have hs' : sub' ∈ c.state.plan.subtasks := hs'
  simp only [Ctx.published, markPublished, Dict.mem_set] at ht
  by_cases he : sub'.id = sub.id
  · have hs'' := hs'
    rw [hplan] at hs hs''
    obtain rfl := subtask_ext hs'' hs he
    exact hd
  · exact hb sub' hs' (by tauto)

theorem Waited.published {c : Ctx} (hw : Waited c.outside.history) {sub : Subtask}
    (hd : DepsResolved sub c.state.results) (env : Env) (cfg : Config) (now : ℚ) :
    Waited (c.published env cfg now sub).outside.history := by
  intro channel sub' r request t hm
  rcases List.mem_cons.mp hm with he | hm
  · cases he; exact hd
  · exact hw _ _ _ _ _ hm

/-- A back-off or a failure arms at most the timer of the subtask itself. -/
theorem timers_retryOrFail {s : TaskState} {sid reason k : String} {now : ℚ}
    (h : k ∈ (s.retryOrFail sid reason now).deadlines ∨ k ∈ (s.retryOrFail sid reason now).retryAt) :
    (k ∈ s.deadlines ∨ k ∈ s.retryAt) ∨ k = sid := by
  unfold retryOrFail at h
  split at h <;> grind [TaskState.fail, scheduleRetry, countRetry]

theorem taskInv_backed (env : Env) (cfg : Config) :
    TaskInv noStaleRefusal env cfg (fun s h => Backed s ∧ Waited h) Waited where
  submitted task now _ := ⟨fun _ _ h => by simp [TaskState.submitted] at h, fun _ _ _ _ _ hm => by cases hm⟩
  resumed task results now _ := ⟨fun _ _ h => by simp [TaskState.resumed] at h, fun _ _ _ _ _ hm => by cases hm⟩
  move := by
    intro now s o c hI hwf hm _
    have hx := extends_move (c := ⟨s, o⟩) hwf hm
    cases hm with
    | ready hs _ _ hd =>
      exact ⟨Backed.published (c := ⟨s, o⟩) hI.1 hwf.plan_eq hs hd env cfg now,
        Waited.published (c := ⟨s, o⟩) hI.2 hd env cfg now⟩
    | skip =>
      exact ⟨hI.1.step rfl hx fun _ _ ht => .inl (by
        simp only [Ctx.update, TaskState.fail, Dict.mem_erase] at ht; tauto), hI.2⟩
    | @expire sid d hd hlt =>
      have hm : Move env cfg now ⟨s, o⟩ _ := .expire hd hlt
      have hplan := hm.frame.2.1
      refine ⟨hI.1.step hplan hx fun sub hs ht => .inl ?_, hI.2⟩
      have := timers_retryOrFail (s := s.dropDeadline sid) ht
      simp only [dropDeadline, Dict.mem_erase] at this
      have := Dict.mem_of_get? hd
      grind
    | @again sid due sub hr _ hs =>
      obtain ⟨hsub, rfl⟩ := Plan.mem_of_get? hs
      have hd : DepsResolved sub s.results := hI.1 sub hsub (.inr (Dict.mem_of_get? hr))
      have hb : Backed (s.dropRetry sub.id) := hI.1.step rfl (Extends.refl _) fun _ _ ht => .inl (by
        simp only [dropRetry, Dict.mem_erase] at ht; tauto)
      exact ⟨Backed.published (c := ⟨s.dropRetry sub.id, o⟩) hb hwf.plan_eq hsub hd env cfg now,
        Waited.published (c := ⟨s.dropRetry sub.id, o⟩) hI.2 hd env cfg now⟩
  routed := by
    intro now s h m jobs s' hI hwf hok hr
    refine ⟨?_, hI.2.cons (by simp)⟩
    have hx := extends_routed hwf hr
    have hplan := hr.frame.2.1
    cases hr with
    | ignored => exact hI.1
    | @refused sid hsid hp href =>
      refine hI.1.step hplan hx fun sub hs ht => ?_
      rcases timers_retryOrFail (s := s.countMessage.dropDeadline sid) ht with ht | he
      · simp only [dropDeadline, countMessage, Dict.mem_erase] at ht
        exact .inl (by tauto)
      · -- the refused subtask has a timer already, or its dependencies are resolved
        by_cases hpub : sid ∈ s.published
        · rw [he]; exact .inl (hwf.armed sid hp hpub)
        · by_contra hn
          exact hok href sid hsid ⟨hp, hpub, sub, hs, he, fun hd => hn (.inr hd)⟩
    | informed =>
      refine hI.1.step hplan hx fun sub hs ht => .inl ?_
      simp only [inform, dropDeadline, countMessage, Dict.mem_erase] at ht
      tauto
  finalizing _ hI _ _ := ⟨hI.1, hI.2.cons (by simp)⟩
  recorded hI hq := ⟨hI.1, hI.2.cons (by rintro _ _ _ _ _ rfl; cases hq)⟩
  history hI := hI.2
  empty _ _ _ _ _ hm := by cases hm
  quiet hw hq := hw.cons (by rintro _ _ _ _ _ rfl; cases hq)

/-- **Requests wait** for their dependencies while no stale refusal arrives. -/
theorem requests_wait (env : Env) (cfg : Config) {c : Coordinator}
    (hr : (runs noStaleRefusal env cfg).Reachable c) (tid : String) :
    ∀ channel sub results request t,
      Event.published channel sub results request t ∈ (c.outside tid).history → DepsResolved sub results :=
  (taskInv_backed env cfg).histories hr tid

/-- The transcriber refuses, and then has the transcript. -/
def redriven : Script :=
  [(some (replyOn "msg-1" .f1Transcribe .refuse), 1), (none, 2), (some (replyOn "msg-2" .f1Transcribe .inform), 3)]

def resumed : Coordinator := played Env.faultless {} (.resume task ∅ 0) redriven

instance (s : TaskState) (sid : String) : Decidable (Unready s sid) :=
  inferInstanceAs (Decidable (sid ∈ s.pending ∧ sid ∉ s.published ∧
    ∃ sub ∈ s.plan.subtasks, sub.id = sid ∧ ¬ DepsResolved sub s.results))

def readyTests : Tests where
  reply s _ m := m.performative ≠ .refuse || m.subtaskId.all fun sid => ¬ Unready s sid
  timely _ _ := true

theorem sound_readyTests : readyTests.Sound noStaleRefusal where
  reply s _ m ha href sid hsid := by
    simpa [readyTests, href, hsid] using ha
  timely _ _ _ := trivial
  idle _ := trivial

theorem plays_redriven : readyTests.plays Env.faultless {} "t1" (.resume task ∅ 0) redriven = true := by
  decide +kernel

theorem requests_wait_resumed : (resumed.outside "t1").history.countP (asks "t1" "st-t1-F1") = 2 ∧
    ∃ channel sub results request t, Event.published channel sub results request t ∈ (resumed.outside "t1").history ∧
      sub.id = "st-t1-F3" ∧ "st-t1-F1" ∈ results := by
  have hr : (runs noStaleRefusal Env.faultless {}).Reachable resumed :=
    LTS.reachable_foldl initial_idle (sound_readyTests.admits_resume trivial plays_redriven)
  obtain ⟨channel, sub, results, request, t, hm, hsid, hdep⟩ :=
    exists_asksSummary (show (resumed.outside "t1").history.any asksSummary = true by decide +kernel)
  have hd := requests_wait Env.faultless {} hr "t1" _ _ _ _ _ hm
  exact ⟨by decide +kernel, channel, sub, results, request, t, hm, hsid,
    hd _ (by rw [hdep]; exact List.mem_singleton_self _)⟩

end MasResearch.Bugs.StaleRefusal
