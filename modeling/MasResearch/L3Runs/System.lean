import MasResearch.L2Agents.AgentBase
import MasResearch.L3Runs.Joins
import MasResearch.L3Runs.Views

/-!
# The coordinator, its agents and the bus between them

`System` is the coordinator with the read loops of the six agents. Requests reach an agent
through its channel and replies reach the coordinator through its inbox. Nothing is assumed
of the delivery: an entry of a channel may be read at any time, any number of times, in any
order, or never. An agent restarts with an empty idempotency cache. The coordinator crashes
between two transitions; it comes back without tasks, and what was published stays on the
bus. A publish of the coordinator that raises has sent nothing (`busPublish`); one of an agent
may have sent its reply all the same.

`Informs` is what the handlers may inform for a request, `Inputs` which tasks are started and
what recovery may reload.

* `Authentic.next`: every reply answers a request from the agent's channel.
* `coordinator_answered`: as long as the coordinator does not crash, what reaches it is
  what the runs of `L3Runs` assume: replies to its own requests.
* `correlated_inductive`: over any number of crashes, replies to requests for the subtasks of the
  task they name.
-/
namespace MasResearch.L3

open MasResearch.L1 MasResearch.L2 Relation TaskState

/-! ## The agents on the bus -/

/-- mirrors src/agents/transcriber.py:18-26, src/agents/ocr.py:18-26, src/agents/summarizer.py:70-78,
src/agents/test_generator.py:68-76, src/agents/terminology.py:172-188, src/agents/recommender.py:72-80 -/
def agentConfig : AgentName → AgentConfig
  | .transcriber => ⟨"TranscriberAgent", .f1Transcribe⟩
  | .ocr => ⟨"OCRAgent", .f2Ocr⟩
  | .summarizer => ⟨"SummarizerAgent", .f3Summarize⟩
  | .testGenerator => ⟨"TestGeneratorAgent", .f4Test⟩
  | .terminology => ⟨"TerminologyAgent", .f5Terms⟩
  | .recommender => ⟨"RecommenderAgent", .f6Recommend⟩

/-- The channel each agent reads, as its constructor spells it out. -/
def agentChannel : AgentName → String
  | .transcriber => "agent.transcriber"
  | .ocr => "agent.ocr"
  | .summarizer => "agent.summarizer"
  | .testGenerator => "agent.test_generator"
  | .terminology => "agent.terminology"
  | .recommender => "agent.recommender"

/-- The coordinator publishes where the agent reads. -/
theorem agentChannel_eq (who : AgentName) : agentChannel who = channelForAgent who.value := by
  cases who <;> decide

theorem agentChannel_inj {a b : AgentName} (h : agentChannel a = agentChannel b) : a = b := by
  cases a <;> cases b <;> first | rfl | (exfalso; revert h; decide)

theorem agentConfig_name (who : AgentName) : (agentConfig who).name = who.className := by cases who <;> rfl

/-- What the handler of an agent may inform for a request. -/
abbrev Informs := AgentName → Message → Content → Prop

/-- Which tasks are started, and what recovery may reload for a subtask of one. -/
structure Inputs where
  starts : Task → Prop := fun _ => True
  loads : Task → String → Content → Prop := fun _ _ _ => False

/-- The message is the agent's reply to the request. -/
def ReplyTo (informs : Informs) (who : AgentName) (request m : Message) : Prop :=
  ∃ hex timestamp outcome, m = replyFor hex timestamp who.className request outcome ∧
    ∀ content, outcome = .ok content → informs who request content

theorem ReplyTo.ids {informs : Informs} {who : AgentName} {request m : Message} (h : ReplyTo informs who request m) :
    m.taskId = request.taskId ∧ m.subtaskId = request.subtaskId := by
  obtain ⟨hex, timestamp, outcome, rfl, -⟩ := h
  cases outcome <;> exact ⟨rfl, rfl⟩

theorem ReplyTo.informed {informs : Informs} {who : AgentName} {request m : Message}
    (h : ReplyTo informs who request m) (hp : m.performative ≠ .refuse) : informs who request m.content := by
  obtain ⟨hex, timestamp, outcome, rfl, hinf⟩ := h
  cases outcome with
  | ok content => exact hinf content rfl
  | error reason => exact absurd rfl hp

/-! ## One round of an agent -/

/-- The request of an arrival is answered as the handler came back. -/
def AnswersArrival (who : AgentName) (arrival : Arrival) (r : Message) : Prop :=
  ∃ d request outcome, arrival = .entry d ∧ d.payload = some request ∧
    r = replyFor d.hex d.timestamp (agentConfig who).name request outcome ∧
    ∀ content, outcome = .ok content → d.outcome = .inform content

section

variable {who : AgentName} {arrival : Arrival} {P : Message → Prop}

theorem maintains_ackMessage (d : Reception) (message : Message) :
    Exec.Maintains (fun s : Agent => ∀ r ∈ s.inbox, P r) (ackMessage d message) := by
  intro s hs
  unfold ackMessage
  cases d.ack with
  | ok => exact hs
  | failed acked => cases acked <;> exact hs

theorem maintains_publishReply (d : Reception) {reply : Message} (h : P reply) :
    Exec.Maintains (fun s : Agent => ∀ r ∈ s.inbox, P r) (publishReply d reply) := by
  intro s hs
  have hcons : ∀ r ∈ reply :: s.inbox, P r := List.forall_mem_cons.mpr ⟨h, hs⟩
  unfold publishReply
  cases d.publish with
  | ok => exact hcons
  | failed sent => cases sent <;> first | exact hs | exact hcons

theorem maintains_acceptMessage (d : Reception) (message : Message) :
    Exec.Maintains (fun s : Agent => ∀ r ∈ s.inbox, P r) (acceptMessage d message) := fun _ hs => hs

/-- What `_safe_handle` returns answers the message. -/
theorem safeHandle_reply (a : AgentConfig) (d : Reception) (message : Message) (s : Agent) :
    ((safeHandle a d message).run s).2 = s ∧ ∀ reply, ((safeHandle a d message).run s).1 = .ok (some reply) →
      ∃ outcome, reply = replyFor d.hex d.timestamp a.name message outcome ∧
        ∀ content, outcome = .ok content → d.outcome = .inform content := by
  unfold safeHandle
  split
  · exact ⟨rfl, by rintro _ ⟨⟩; exact ⟨_, rfl, by rintro _ ⟨⟩⟩⟩
  · cases d.outcome with
    | inform content => exact ⟨rfl, by rintro _ ⟨⟩; exact ⟨_, rfl, by rintro _ ⟨⟩; rfl⟩⟩
    | refuse reason => exact ⟨rfl, by rintro _ ⟨⟩; exact ⟨_, rfl, by rintro _ ⟨⟩⟩⟩
    | skip => exact ⟨rfl, by rintro _ ⟨⟩⟩
    | adapterError name => exact ⟨rfl, by rintro _ ⟨⟩; exact ⟨_, rfl, by rintro _ ⟨⟩⟩⟩
    | error => exact ⟨rfl, by rintro _ ⟨⟩⟩
    | cancelled => exact ⟨rfl, by rintro _ ⟨⟩⟩

/-- **One round of an agent.** It adds nothing to the coordinator's inbox but an answer to
the request that arrived. -/
theorem inbox_next (who : AgentName) (s : Agent) (arrival : Arrival) :
    ∀ r ∈ (Agent.next (agentConfig who) s arrival).inbox, r ∈ s.inbox ∨ AnswersArrival who arrival r := by
  have hread : Exec.Maintains (fun t : Agent => ∀ r ∈ t.inbox, r ∈ s.inbox ∨ AnswersArrival who arrival r)
      (readOnce (agentConfig who) arrival) := by
    cases arrival with
    | unavailable => exact fun _ h => h
    | nothing => exact Exec.Maintains.pure ()
    | entry d =>
      cases hp : d.payload with
      | none => simp only [readOnce, hp]; exact fun _ h => h
      | some message =>
        simp only [readOnce, hp]
        refine (maintains_acceptMessage d message).bind fun isNew => ?_
        split
        · exact maintains_ackMessage d message
        · intro t ht
          obtain ⟨hsame, hreply⟩ := safeHandle_reply (agentConfig who) d message t
          rw [Exec.run_bind]
          generalize (safeHandle (agentConfig who) d message).run t = r at hsame hreply
          obtain ⟨e | reply, t'⟩ := r
          · rw [show t' = t from hsame]; exact ht
          · obtain rfl : t' = t := hsame
            cases reply with
            | none => exact (Exec.Maintains.pure ()).bind (fun _ => maintains_ackMessage d message) t' ht
            | some reply =>
              obtain ⟨outcome, he, hok⟩ := hreply reply rfl
              exact (maintains_publishReply d (.inr ⟨d, message, outcome, rfl, hp, he, hok⟩)).bind
                (fun _ => maintains_ackMessage d message) t' ht
  have hloop : Exec.Maintains (fun t : Agent => ∀ r ∈ t.inbox, r ∈ s.inbox ∨ AnswersArrival who arrival r)
      (loopRound (agentConfig who) arrival) := by
    refine hread.attempt fun error => ?_
    split
    · exact fun _ h => h
    · exact Exec.Maintains.pure ()
  exact hloop s fun _ h => .inl h

end

/-! ## What a tick is handed -/

/-- An acknowledged entry was delivered. -/
theorem mem_ackedOf {e : Acked} : ∀ {r : IdempotentReceiver} {ds : List Delivery}, e ∈ ackedOf r ds →
    ∃ d ∈ ds, d.payload = some e.reply
  | _, [], h => by cases h
  | r, d :: ds, h => by
    unfold ackedOf at h
    cases hp : d.payload with
    | none => rw [hp] at h; cases h
    | some reply =>
      rw [hp] at h
      cases ha : d.ack with
      | ok =>
        rw [ha] at h
        rcases List.mem_cons.mp h with rfl | h
        · exact ⟨d, List.mem_cons_self, hp⟩
        · obtain ⟨d', hd, he⟩ := mem_ackedOf h
          exact ⟨d', List.mem_cons_of_mem _ hd, he⟩
      | failed acked =>
        rw [ha] at h
        cases acked with
        | true => rw [List.mem_singleton.mp h]; exact ⟨d, List.mem_cons_self, hp⟩
        | false => cases h

/-- The replies of a tick were delivered to it. -/
theorem mem_readInbox {batch : Batch} {m : Mailbox} {replies : List Message}
    (h : ((readInbox batch).run m).1 = .ok replies) {reply : Message} (hr : reply ∈ replies) :
    ∃ ds d, batch = .entries ds ∧ d ∈ ds ∧ d.payload = some reply := by
  cases batch with
  | unavailable => cases h
  | entries ds =>
    obtain ⟨r, m', h1, -, hc⟩ := run_readEntries ds m
    rw [show (readInbox (.entries ds)).run m = (r, m') from h1] at h
    obtain rfl : r = .ok replies := h
    rcases hc with ⟨-, hk⟩ | ⟨-, e, he⟩
    · cases hk
      obtain ⟨e, he, rfl⟩ := List.mem_map.mp hr
      obtain ⟨d, hd, hp⟩ := mem_ackedOf (List.mem_filter.mp he).1
      exact ⟨ds, d, rfl, hd, hp⟩
    · cases he

theorem routable_of_forall {A : Assumptions} {env : Env} {now : ℚ} {tid : String} : ∀ (ms : List Message) (l : Slot),
    KeyedState tid l.state → (∀ m ∈ ms, ∀ s h, s.task.id = tid → l.outside.history <:+ h → A.reply s h m) →
    A.routable env now ms l
  | [], _, _, _ => trivial
  | m :: ms, l, hk, h => by
    rw [List.forall_mem_cons] at h
    obtain ⟨jobs, l1, h1, -, hk1, -, hc⟩ := run_routeTo env now hk m
    refine ⟨fun s hs => h.1 s _ (hk s hs).2 (List.suffix_refl _), ?_⟩
    rw [h1]
    refine routable_of_forall ms l1 hk1 fun m' hm s k hid hsuf => h.2 m' hm s k hid ?_
    rcases hc with ⟨-, rfl⟩ | ⟨_, _, -, -, ho, -⟩
    · exact hsuf
    · rw [ho] at hsuf
      exact (List.suffix_cons _ _).trans hsuf

/-- What recovery may start a task with. -/
def Trusted (inputs : Inputs) (task : Task) (results : Dict String Content) : Prop :=
  inputs.starts task ∧ ∀ sid content, results.get? sid = some content → inputs.loads task sid content

/-- Nothing is assumed of the replies. -/
def Assumptions.loading (inputs : Inputs) : Assumptions where
  submits := inputs.starts
  resumes := Trusted inputs

/-- Assumptions about replies hold of a transition when they hold of what it is handed. -/
theorem allows_of_loading {A : Assumptions} {inputs : Inputs} {env : Env} {c : Coordinator} {a : Action}
    (hk : Keyed c) (ha : (Assumptions.loading inputs).allows env c a)
    (hsub : ∀ task, inputs.starts task → A.submits task)
    (hres : ∀ task results, Trusted inputs task results → A.resumes task results)
    (hreply : ∀ ds now, a = .tick (.entries ds) now → ∀ d ∈ ds, ∀ reply, d.payload = some reply →
      ∀ s h, s.task.id = reply.taskId → (c.outside reply.taskId).history <:+ h → A.reply s h reply) :
    A.allows env c a := by
  cases a with
  | submit task now => exact ⟨hsub task ha.1, ha.2⟩
  | resume task results now => exact ⟨hres task results ha.1, ha.2⟩
  | tick batch now =>
    intro replies hread tid
    refine routable_of_forall _ (c.slot tid) (hk tid) fun m hm s h hs hsuf => ?_
    obtain ⟨hin, hid⟩ := List.mem_filter.mp hm
    obtain rfl : m.taskId = tid := by simpa using hid
    obtain ⟨ds, d, rfl, hd, hp⟩ := mem_readInbox hread hin
    exact hreply ds now rfl d hd m hp s h hs hsuf

/-! ## The system -/

/-- `archive` is ghost: the requests published before the coordinator's last crash. -/
structure System where
  coordinator : Coordinator
  agent : AgentName → Agent
  archive : AgentName → Message → Prop := fun _ _ => False

inductive Label where
  | coordinator (a : Action)
  | agent (who : AgentName) (arrival : Arrival)
  | restart (who : AgentName)
  | crash

namespace System

/-- The coordinator published the request to the agent since it last came up. -/
def Requests (c : Coordinator) (who : AgentName) (request : Message) : Prop :=
  ∃ tid sub results t, Event.published (agentChannel who) sub results request t ∈ (c.outside tid).history

/-- The request is in the channel of the agent. -/
def Published (s : System) (who : AgentName) (request : Message) : Prop :=
  s.archive who request ∨ Requests s.coordinator who request

/-- What a transition of the coordinator reads was sent by an agent. -/
def FromAgents (s : System) (a : Action) : Prop := ∀ ds now, a = .tick (.entries ds) now →
  ∀ d ∈ ds, ∀ reply, d.payload = some reply → ∃ who, reply ∈ (s.agent who).inbox

/-- What an agent reads is in its channel, and its handler informs what it may. -/
def FromCoordinator (informs : Informs) (s : System) (who : AgentName) (arrival : Arrival) : Prop :=
  ∀ d request, arrival = .entry d → d.payload = some request →
    Published s who request ∧ ∀ content, d.outcome = .inform content → informs who request content

def Enabled (informs : Informs) (inputs : Inputs) (env : Env) (s : System) : Label → Prop
  | .coordinator a => (Assumptions.loading inputs).allows env s.coordinator a ∧ FromAgents s a
  | .agent who arrival => FromCoordinator informs s who arrival
  | .restart _ | .crash => True

theorem receiver_pos : 0 < 1000 := by decide

/-- The agent after its constructor; what it sent is sent. -/
def restarted (a : Agent) : Agent := { a with receiver := .new 1000 receiver_pos, running := true }

/-- The coordinator after its constructor; the rows are in the database. -/
def crashed (c : Coordinator) : Coordinator where
  tasks := ∅
  mailbox := { receiver := .new 1000 receiver_pos }
  outside tid := ⟨[], (c.outside tid).row⟩
  inflight := 0

def setAgent (s : System) (who : AgentName) (a : Agent) : System :=
  { s with agent := Function.update s.agent who a }

theorem mem_inbox_setAgent {s : System} {who k : AgentName} {a : Agent} {m : Message}
    (h : m ∈ ((s.setAgent who a).agent k).inbox) : k = who ∧ m ∈ a.inbox ∨ m ∈ (s.agent k).inbox := by
  have h : m ∈ (Function.update s.agent who a k).inbox := h
  by_cases hk : k = who
  · subst hk
    rw [Function.update_self] at h
    exact .inl ⟨rfl, h⟩
  · rw [Function.update_of_ne hk] at h
    exact .inr h

def next (env : Env) (cfg : Config) (s : System) : Label → System
  | .coordinator a => { s with coordinator := L3.next env cfg s.coordinator a }
  | .agent who arrival => s.setAgent who (Agent.next (agentConfig who) (s.agent who) arrival)
  | .restart who => s.setAgent who (restarted (s.agent who))
  | .crash => { s with coordinator := crashed s.coordinator, archive := Published s }

def Start (s : System) : Prop :=
  Initial s.coordinator ∧ (∀ who, (s.agent who).Started) ∧ ∀ who request, ¬ s.archive who request

end System

def system (informs : Informs) (inputs : Inputs) (env : Env) (cfg : Config) : LTS System Label :=
  LTS.guarded System.Start (System.Enabled informs inputs env) (System.next env cfg)

/-! ## Every reply answers a request -/

/-- The inboxes hold replies to what is in the channels. -/
def Authentic (informs : Informs) (s : System) : Prop := ∀ who, ∀ m ∈ (s.agent who).inbox,
  ∃ request, s.Published who request ∧ ReplyTo informs who request m

section

variable {informs : Informs} {inputs : Inputs} {env : Env} {cfg : Config}

theorem Requests.next {c : Coordinator} (hk : Keyed c) {a : Action} {A : Assumptions} (ha : A.allows env c a)
    {who : AgentName} {request : Message} (h : System.Requests c who request) :
    System.Requests (next env cfg c a) who request := by
  obtain ⟨tid, sub, results, t, hm⟩ := h
  obtain ⟨new, hnew⟩ := history_next_append env cfg hk ha tid
  exact ⟨tid, sub, results, t, by rw [hnew]; exact List.mem_append_right _ hm⟩

theorem Authentic.next {s : System} (h : Authentic informs s) (hk : Keyed s.coordinator) {l : Label}
    (he : s.Enabled informs inputs env l) : Authentic informs (s.next env cfg l) := by
  intro who m hm
  cases l with
  | coordinator a =>
    obtain ⟨request, hpub, hr⟩ := h who m hm
    exact ⟨request, hpub.imp id (Requests.next hk he.1), hr⟩
  | agent k arrival =>
    rcases System.mem_inbox_setAgent hm with ⟨rfl, hm⟩ | hm
    · rcases inbox_next who (s.agent who) arrival m hm with hm | ⟨d, request, outcome, hd, hp, rfl, hok⟩
      · exact h who m hm
      · obtain ⟨hpub, hinf⟩ := he d request hd hp
        rw [agentConfig_name]
        exact ⟨request, hpub, d.hex, d.timestamp, outcome, rfl, fun content hc => hinf content (hok content hc)⟩
    · exact h who m hm
  | restart k =>
    rcases System.mem_inbox_setAgent hm with ⟨rfl, hm⟩ | hm
    · exact h who m hm
    · exact h who m hm
  | crash =>
    obtain ⟨request, hpub, hr⟩ := h who m hm
    exact ⟨request, .inl hpub, hr⟩

end

/-! ## The tasks the coordinator works on -/

/-- Only such tasks are submitted and resumed. -/
structure Assumptions.Within (A : Assumptions) (starts : Task → Prop) : Prop where
  submits : ∀ task, A.submits task → starts task
  resumes : ∀ task results, A.resumes task results → starts task

/-- Requests and finalizations are of such tasks. -/
def StartedEvent (starts : Task → Prop) : Event → Prop
  | .published channel sub results request _ => ∃ task, starts task ∧ sub ∈ (buildPlan task).subtasks ∧
      channel = channelForAgent sub.agent.value ∧ request.taskId = task.id ∧ request.subtaskId = some sub.id ∧
      request.content = buildPayload sub task results
  | .finalizing _ _ s => starts s.task
  | _ => True

theorem startedEvent_of_quiet {starts : Task → Prop} {e : Event} (hq : e.quiet = true) : StartedEvent starts e := by
  cases e <;> trivial

theorem taskInv_started {A : Assumptions} {starts : Task → Prop} (hA : A.Within starts) (env : Env) (cfg : Config) :
    TaskInv A env cfg (fun s h => starts s.task ∧ ∀ e ∈ h, StartedEvent starts e)
      fun h => ∀ e ∈ h, StartedEvent starts e where
  submitted task now hs := ⟨hA.submits task hs, List.forall_mem_nil _⟩
  resumed task results now hs := ⟨hA.resumes task results hs, List.forall_mem_nil _⟩
  move := by
    rintro now s o c ⟨hstart, hh⟩ hwf hm -
    have hpublished : ∀ sub ∈ s.plan.subtasks, sub ∈ (buildPlan s.task).subtasks := fun sub hs => by
      rwa [hwf.plan_eq] at hs
    cases hm with
    | ready hs =>
      exact ⟨hstart, List.forall_mem_cons.mpr ⟨⟨s.task, hstart, hpublished _ hs, rfl, rfl, rfl, rfl⟩, hh⟩⟩
    | skip => exact ⟨hstart, hh⟩
    | @expire sid d hd hlt =>
      have hm : Move env cfg now ⟨s, o⟩ _ := .expire hd hlt
      exact ⟨by rw [hm.frame.1]; exact hstart, hh⟩
    | @again sid due sub hr hle hs =>
      have hin := hpublished sub (Plan.mem_of_get? hs).1
      exact ⟨hstart, List.forall_mem_cons.mpr ⟨⟨s.task, hstart, hin, rfl, rfl, rfl, rfl⟩, hh⟩⟩
  routed h _ _ hr := ⟨by rw [hr.frame.1]; exact h.1, List.forall_mem_cons.mpr ⟨trivial, h.2⟩⟩
  finalizing _ h _ _ := ⟨h.1, List.forall_mem_cons.mpr ⟨h.1, h.2⟩⟩
  recorded h hq := ⟨h.1, List.forall_mem_cons.mpr ⟨startedEvent_of_quiet hq, h.2⟩⟩
  history h := h.2
  empty := List.forall_mem_nil _
  quiet h hq := List.forall_mem_cons.mpr ⟨startedEvent_of_quiet hq, h⟩

/-! ## Replies to the coordinator's own requests -/

/-- Replies of the agents to requests in the history, and reloaded results. -/
def Assumptions.replies (informs : Informs) (inputs : Inputs) : Assumptions where
  submits := inputs.starts
  resumes := Trusted inputs
  reply _ h m := ∃ channel sub results request t, Event.published channel sub results request t ∈ h ∧
    ReplyTo informs sub.agent request m

theorem within_replies (informs : Informs) (inputs : Inputs) :
    (Assumptions.replies informs inputs).Within inputs.starts := ⟨fun _ h => h, fun _ _ h => h.1⟩

theorem own_replies (informs : Informs) (inputs : Inputs) : (Assumptions.replies informs inputs).Own := by
  rintro s h m ⟨channel, sub, results, request, t, hm, hr⟩
  exact ⟨channel, sub, results, request, t, hm, hr.ids⟩

section

variable {informs : Informs} {inputs : Inputs} {env : Env} {cfg : Config} {A : Assumptions}

/-- A request in an agent's channel is for a subtask of that agent. -/
theorem requests_agent (hA : A.Within inputs.starts) {c : Coordinator} (hr : (runs A env cfg).Reachable c)
    {who : AgentName} {request : Message} (h : System.Requests c who request) :
    ∃ task sub results t, inputs.starts task ∧ sub ∈ (buildPlan task).subtasks ∧ sub.agent = who ∧
      Event.published (agentChannel who) sub results request t ∈ (c.outside request.taskId).history ∧
      request.taskId = task.id ∧ request.subtaskId = some sub.id ∧
      request.content = buildPayload sub task results := by
  obtain ⟨tid, sub, results, t, hm⟩ := h
  obtain ⟨task, hstart, hsub, hch, hid, hsid, hc⟩ := (taskInv_started hA env cfg).histories hr tid _ hm
  rw [← agentChannel_eq] at hch
  obtain rfl := request_taskId hr hm
  exact ⟨task, sub, results, t, hstart, hsub, (agentChannel_inj hch).symm, hm, hid, hsid, hc⟩

/-- What one transition of the system keeps while the coordinator does not crash. -/
structure Attached (informs : Informs) (inputs : Inputs) (env : Env) (cfg : Config) (s : System) : Prop where
  reachable : (runs (.replies informs inputs) env cfg).Reachable s.coordinator
  authentic : Authentic informs s
  archive : ∀ who request, ¬ s.archive who request

theorem Attached.next {s : System} (h : Attached informs inputs env cfg s) {l : Label}
    (he : s.Enabled informs inputs env l) (hl : l ≠ .crash) : Attached informs inputs env cfg (s.next env cfg l) := by
  have hk := keyed_of_reachable h.reachable
  have hauth : Authentic informs (s.next env cfg l) := h.authentic.next hk he
  cases l with
  | coordinator a =>
    refine ⟨h.reachable.step (l := a) ⟨⟨?_, fun _ => trivial⟩, rfl⟩, hauth, h.archive⟩
    refine allows_of_loading hk he.1 (fun _ ht => ht) (fun _ _ ht => ht) ?_
    rintro ds now rfl d hd reply hp st k - hsuf
    obtain ⟨who, hin⟩ := he.2 ds now rfl d hd reply hp
    obtain ⟨request, hpub, hrep⟩ := h.authentic who reply hin
    obtain ⟨task, sub, results, t, -, -, rfl, hm, -⟩ :=
      requests_agent (within_replies informs inputs) h.reachable (hpub.resolve_left (h.archive who request))
    rw [hrep.ids.1] at hsuf
    exact ⟨_, sub, results, request, t, hsuf.subset hm, hrep⟩
  | agent who arrival => exact ⟨h.reachable, hauth, h.archive⟩
  | restart who => exact ⟨h.reachable, hauth, h.archive⟩
  | crash => exact absurd rfl hl

theorem attached_start {s : System} (h : s.Start) : Attached informs inputs env cfg s where
  reachable := ⟨_, [], h.1, .nil _⟩
  authentic who m hm := by rw [(h.2.1 who).2.2.1] at hm; cases hm
  archive := h.2.2

theorem Attached.run {s s' : System} {ls : List Label} (hr : (system informs inputs env cfg).Run s ls s') :
    Label.crash ∉ ls → Attached informs inputs env cfg s → Attached informs inputs env cfg s' := by
  induction hr with
  | nil => exact fun _ h => h
  | cons hs _ ih =>
    intro hl h
    rw [List.mem_cons, not_or] at hl
    obtain ⟨he, rfl⟩ := hs
    exact ih hl.2 (h.next he (Ne.symm hl.1))

end

/-! ## Playing a run -/

/-- The request of an event, if the agent gets it. -/
def requestTo (who : AgentName) : Event → Option Message
  | .published channel _ _ request _ => if channel = agentChannel who then some request else none
  | _ => none

def System.idle : System where
  coordinator := Coordinator.idle
  agent _ := { receiver := .new 1000 receiver_pos }

theorem start_idle : System.idle.Start :=
  ⟨initial_idle, fun _ => ⟨rfl, rfl, rfl, rfl, rfl⟩, fun _ _ h => h⟩

namespace System

section

variable (s : System)

/-- The last request of a task to an agent. -/
def request? (tid : String) (who : AgentName) : Option Message :=
  (s.coordinator.outside tid).history.findSome? (requestTo who)

def request (tid : String) (who : AgentName) : Message := (s.request? tid who).getD transcript

/-- The last reply of an agent. -/
def reply? (who : AgentName) : Option Message := (s.agent who).inbox.head?

def reply (who : AgentName) : Message := (s.reply? who).getD transcript

/-- The agent informs the content. -/
def answering (tid : String) (who : AgentName) (content : Content) : Label :=
  .agent who (.entry
    { entryId := "0-1", payload := some (s.request tid who), outcome := .inform content, hex := who.value })

/-- A tick reads the last replies of the agents. -/
def hearing (whos : List AgentName) (now : ℚ) : Label :=
  .coordinator (.tick (.entries (whos.map fun who => { entryId := "1-0", payload := some (s.reply who) })) now)

end

/-- The transition is enabled if the task may be started. -/
def Ready (informs : Informs) (env : Env) (task : Task) (s : System) (l : Label) : Prop :=
  ∀ inputs : Inputs, inputs.starts task → s.Enabled informs inputs env l

variable {informs : Informs} {env : Env} {cfg : Config} {task : Task} {s : System} {tid : String} {who : AgentName}

theorem ready_submit : idle.Ready informs env task (.coordinator (.submit task 0)) :=
  fun _ hs => ⟨⟨hs, rfl, rfl⟩, by rintro _ _ ⟨⟩⟩

theorem published_request (h : (s.request? tid who).isSome = true) : s.Published who (s.request tid who) := by
  obtain ⟨request, hreq⟩ := Option.isSome_iff_exists.mp h
  rw [System.request, hreq]
  obtain ⟨e, he, hask⟩ := List.exists_of_findSome?_eq_some hreq
  cases e with
  | published channel sub results request' t =>
    simp only [requestTo, Option.ite_none_right_eq_some, Option.some.injEq] at hask
    obtain ⟨rfl, rfl⟩ := hask
    exact .inr ⟨tid, sub, results, t, he⟩
  | _ => cases hask

theorem ready_answering (h : (s.request? tid who).isSome = true) {content : Content}
    (hi : informs who (s.request tid who) content) : s.Ready informs env task (s.answering tid who content) := by
  rintro _ - _ _ ⟨⟩ ⟨⟩
  exact ⟨published_request h, by rintro _ ⟨⟩; exact hi⟩

theorem mem_reply (h : (s.reply? who).isSome = true) : s.reply who ∈ (s.agent who).inbox := by
  obtain ⟨reply, hr⟩ := Option.isSome_iff_exists.mp h
  rw [System.reply, hr]
  exact List.mem_of_head? hr

theorem ready_hearing {whos : List AgentName} (h : ∀ who ∈ whos, (s.reply? who).isSome = true) (now : ℚ) :
    s.Ready informs env task (s.hearing whos now) := by
  refine fun inputs _ => ⟨fun _ _ _ => routable_of (fun _ _ _ => trivial) _ _ _ _, ?_⟩
  rintro _ _ ⟨⟩ d hd reply hp
  obtain ⟨who, hwho, rfl⟩ := List.mem_map.mp hd
  obtain rfl := Option.some.inj hp
  exact ⟨who, mem_reply (h who hwho)⟩

/-- Labels that are ready one after another are a run. -/
theorem run_of_ready {inputs : Inputs} (hs : inputs.starts task) : ∀ {ls : List Label} {s : System},
    LTS.Admits (Ready informs env task) (System.next env cfg) s ls →
      (system informs inputs env cfg).Run s ls (ls.foldl (System.next env cfg) s)
  | [], s, _ => .nil s
  | _ :: _, _, h => .cons ⟨h.1 inputs hs, rfl⟩ (run_of_ready hs h.2)

end System

/-! ### A lecture: submitted, transcribed, read -/

section

variable (env : Env) (content : Content)

def lectureAsked : System := System.idle.next env {} (.coordinator (.submit lecture 0))

def lectureAnswered : System := (lectureAsked env).next env {} ((lectureAsked env).answering "t1" .transcriber content)

def lectureRun : List Label :=
  [.coordinator (.submit lecture 0), (lectureAsked env).answering "t1" .transcriber content,
    (lectureAnswered env content).hearing [.transcriber] 1]

def lectureOver : System := (lectureRun env content).foldl (System.next env {}) System.idle

/-- The request went out and the reply came back. -/
def LecturePlayed : Prop := ((lectureAsked env).request? "t1" .transcriber).isSome = true ∧
  ((lectureAnswered env content).reply? .transcriber).isSome = true

variable {env content} {informs : Informs} {inputs : Inputs}

theorem ready_lecture (h : LecturePlayed env content)
    (hi : informs .transcriber ((lectureAsked env).request "t1" .transcriber) content) :
    LTS.Admits (System.Ready informs env lecture) (System.next env {}) System.idle (lectureRun env content) :=
  ⟨System.ready_submit, System.ready_answering h.1 hi,
    System.ready_hearing (List.forall_mem_singleton.mpr h.2) 1, trivial⟩

theorem run_lecture (h : LecturePlayed env content) (hs : inputs.starts lecture)
    (hi : informs .transcriber ((lectureAsked env).request "t1" .transcriber) content) :
    (system informs inputs env {}).Run System.idle (lectureRun env content) (lectureOver env content) :=
  System.run_of_ready hs (ready_lecture h hi)

/-- A finalization with a transcript. -/
def isTranscribed : Event → Bool
  | .finalizing _ _ s => (s.results.content? "st-t1-F1").isSome
  | _ => false

theorem exists_transcribed {h : List Event} (ht : h.any isTranscribed = true) : ∃ cause status s,
    Event.finalizing cause status s ∈ h ∧ (s.results.content? "st-t1-F1").isSome = true := by
  obtain ⟨e, he, ht⟩ := List.any_eq_true.mp ht
  cases e with
  | finalizing cause status s => exact ⟨cause, status, s, he, ht⟩
  | _ => cases ht

theorem noCrash_lecture : Label.crash ∉ lectureRun env content := by
  simp [lectureRun, System.answering, System.hearing]

end

section

variable {informs : Informs} {inputs : Inputs} {env : Env} {cfg : Config}

/-- **What reaches the coordinator answers its requests.** -/
theorem coordinator_answered (informs : Informs) (inputs : Inputs) (env : Env) (cfg : Config) {s₀ s : System}
    {ls : List Label} (h0 : s₀.Start) (hr : (system informs inputs env cfg).Run s₀ ls s) (hl : Label.crash ∉ ls) :
    (runs (.replies informs inputs) env cfg).Reachable s.coordinator ∧
    ∀ who, ∀ m ∈ (s.agent who).inbox, ∃ task sub results request t, inputs.starts task ∧
      sub ∈ (buildPlan task).subtasks ∧ sub.agent = who ∧
      Event.published (agentChannel who) sub results request t ∈ (s.coordinator.outside m.taskId).history ∧
      m.subtaskId = some sub.id ∧ ReplyTo informs who request m := by
  have h := Attached.run hr hl (attached_start h0)
  refine ⟨h.reachable, fun who m hm => ?_⟩
  obtain ⟨request, hpub, hrep⟩ := h.authentic who m hm
  obtain ⟨task, sub, results, t, hstart, hsub, hwho, hev, -, hsid, -⟩ :=
    requests_agent (within_replies informs inputs) h.reachable (hpub.resolve_left (h.archive who request))
  exact ⟨task, sub, results, request, t, hstart, hsub, hwho, by rw [hrep.ids.1]; exact hev, hrep.ids.2.trans hsid, hrep⟩

theorem played_faultless : LecturePlayed Env.faultless [] := by
  unfold LecturePlayed
  decide +kernel

theorem coordinator_answered_lecture : ∃ reply sub results request t,
    (lectureOver Env.faultless []).reply? .transcriber = some reply ∧
    Event.published (agentChannel .transcriber) sub results request t ∈
      ((lectureOver Env.faultless []).coordinator.outside reply.taskId).history ∧
    reply.subtaskId = some sub.id ∧ ReplyTo (fun _ _ _ => True) .transcriber request reply := by
  obtain ⟨reply, hreply⟩ := Option.isSome_iff_exists.mp
    (show ((lectureOver Env.faultless []).reply? .transcriber).isSome = true by decide +kernel)
  obtain ⟨-, sub, results, request, t, -, -, -, hm, hsid, hrep⟩ :=
    (coordinator_answered (fun _ _ _ => True) {} Env.faultless {} start_idle
      (run_lecture played_faultless trivial trivial) noCrash_lecture).2 .transcriber reply (List.mem_of_head? hreply)
  exact ⟨reply, sub, results, request, t, hreply, hm, hsid, hrep⟩

/-! ## Crashes -/

/-- A request as some coordinator publishes it for a subtask of a task with this id. -/
def RequestFor (inputs : Inputs) (who : AgentName) (request : Message) : Prop :=
  ∃ task sub results, inputs.starts task ∧ sub ∈ (buildPlan task).subtasks ∧ sub.agent = who ∧
    request.taskId = task.id ∧ request.subtaskId = some sub.id ∧ request.content = buildPayload sub task results

/-- Replies of the agents, whenever the request was published, and reloaded results. -/
def Assumptions.correlated (informs : Informs) (inputs : Inputs) : Assumptions where
  submits := inputs.starts
  resumes := Trusted inputs
  reply s _ m :=
    ∃ who request, RequestFor inputs who request ∧ request.taskId = s.task.id ∧ ReplyTo informs who request m

theorem within_correlated (informs : Informs) (inputs : Inputs) :
    (Assumptions.correlated informs inputs).Within inputs.starts := ⟨fun _ h => h, fun _ _ h => h.1⟩

/-- What every transition of the system keeps. -/
structure Correlated (informs : Informs) (inputs : Inputs) (env : Env) (cfg : Config) (s : System) : Prop where
  reachable : (runs (.correlated informs inputs) env cfg).Reachable s.coordinator
  authentic : Authentic informs s
  archive : ∀ who request, s.archive who request → RequestFor inputs who request

theorem Correlated.published {s : System} (h : Correlated informs inputs env cfg s) {who : AgentName}
    {request : Message} (hp : s.Published who request) : RequestFor inputs who request := by
  rcases hp with hp | hp
  · exact h.archive who request hp
  · obtain ⟨task, sub, results, t, hstart, hsub, hwho, -, hid, hsid, hc⟩ :=
      requests_agent (within_correlated informs inputs) h.reachable hp
    exact ⟨task, sub, results, hstart, hsub, hwho, hid, hsid, hc⟩

/-- What the coordinator is handed is what its runs assume. -/
theorem Correlated.allows {s : System} (h : Correlated informs inputs env cfg s) {a : Action}
    (he : s.Enabled informs inputs env (.coordinator a)) :
    (Assumptions.correlated informs inputs).allows env s.coordinator a := by
  refine allows_of_loading (keyed_of_reachable h.reachable) he.1 (fun _ ht => ht) (fun _ _ ht => ht) ?_
  rintro ds now rfl d hd reply hp st k hst -
  obtain ⟨who, hin⟩ := he.2 ds now rfl d hd reply hp
  obtain ⟨request, hpub, hrep⟩ := h.authentic who reply hin
  exact ⟨who, request, h.published hpub, by rw [hst, hrep.ids.1], hrep⟩

theorem correlated_inductive (informs : Informs) (inputs : Inputs) (env : Env) (cfg : Config) :
    (system informs inputs env cfg).Inductive (Correlated informs inputs env cfg) where
  init s h :=
    { reachable := ⟨_, [], h.1, .nil _⟩
      authentic := fun who m hm => by rw [(h.2.1 who).2.2.1] at hm; cases hm
      archive := fun who request ha => absurd ha (h.2.2 who request) }
  step s l s' h hs := by
    obtain ⟨he, rfl⟩ := hs
    have hk := keyed_of_reachable h.reachable
    have hauth : Authentic informs (s.next env cfg l) := h.authentic.next hk he
    cases l with
    | coordinator a =>
      exact ⟨h.reachable.step (l := a) ⟨⟨h.allows he, fun _ => trivial⟩, rfl⟩, hauth, h.archive⟩
    | agent who arrival => exact ⟨h.reachable, hauth, h.archive⟩
    | restart who => exact ⟨h.reachable, hauth, h.archive⟩
    | crash => exact ⟨⟨_, [], fun _ => ⟨rfl, rfl⟩, .nil _⟩, hauth, fun _ _ hp => h.published hp⟩

end

end MasResearch.L3
