import MasResearch.L2Agents.AgentBase

/-!
# A message whose handling raised is acknowledged when it comes again

The message id is cached before the handler runs (src/agents/base.py:61-64). A handler
that raises anything but an adapter error, or an `XADD` that raises, ends the round
before the `XACK`; the entry stays pending so that it can be delivered again. When it is,
its id is still cached, and the duplicate branch acknowledges it without handling it
(base.py:61-63): the request is gone and nobody answered it.

`RedisStreamBus.ack` is documented as "Call only after the handler finished
successfully" (src/core/bus.py:83).

Counterexample: the handler raises on the first delivery; the second is acknowledged.

* `acked_answered_iff`: in every run each acknowledged message had been answered exactly
  if every message that came again while its id was cached, and was acknowledged, had been
  handled before with a reply that reached the inbox.
-/
namespace MasResearch.Bugs.UnansweredAck

open MasResearch.L1 MasResearch.L2

/-- A reply to the message had been published to the coordinator's inbox. -/
def Answered (e : AckedRequest) : Prop := ∃ r ∈ e.inbox, r.inReplyTo = some e.request.messageId

/-- The handler comes back with a reply. -/
def returns : HandlerOutcome → Bool
  | .inform _ | .refuse _ | .adapterError _ => true
  | .skip | .error | .cancelled => false

/-- The reception ends with a reply in the coordinator's inbox. -/
def Answering (a : AgentConfig) (d : Reception) : Prop :=
  (a.flagged d ∨ returns d.outcome = true) ∧ d.publish ≠ .failed false

instance (a : AgentConfig) (d : Reception) : Decidable (Answering a d) :=
  inferInstanceAs (Decidable ((_ ∨ _) ∧ _ ≠ _))

def messageId? (d : Reception) : Option String := d.payload.map Message.messageId

/-- The handler returns a reply or raises. -/
def NoSkip : Arrival → Prop
  | .entry d => d.outcome ≠ .skip
  | _ => True

/-- A message that comes while its id is cached, and is acknowledged, was answered when it
was handled. -/
def Redelivered (a : AgentConfig) (s : Agent) : Arrival → Prop
  | .entry d => ∀ id ∈ messageId? d, id ∈ s.receiver.seen → d.ack ≠ .failed false →
      ∃ h ∈ s.handled, messageId? h = some id ∧ Answering a h
  | _ => True

/-! ## One round -/

section

variable {a : AgentConfig} {s : Agent} {d : Reception} {message : Message}

theorem run_ackMessage (d : Reception) (message : Message) (s : Agent) :
    ((ackMessage d message).run s).2 =
      if d.ack = .failed false then s else { s with acked := ⟨message, s.inbox⟩ :: s.acked } := by
  unfold ackMessage
  cases hd : d.ack with
  | ok => simp
  | failed acked => cases acked <;> simp [Exec.run_bind]

/-- A new message is handled, and acknowledged only behind its reply. -/
structure Handled (a : AgentConfig) (d : Reception) (message : Message) (s s' : Agent) : Prop where
  handled : s'.handled = d :: s.handled
  outcome : (Answering a d ∧ ∃ r, r.inReplyTo = some message.messageId ∧ s'.inbox = r :: s.inbox ∧
      (s'.acked = s.acked ∨ s'.acked = ⟨message, r :: s.inbox⟩ :: s.acked)) ∨
    ¬ Answering a d ∧ s'.inbox = s.inbox ∧ s'.acked = s.acked

theorem run_safeHandle (a : AgentConfig) (hskip : d.outcome ≠ .skip) (message : Message) (s : Agent) :
    ((a.flagged d ∨ returns d.outcome = true) ∧
      ∃ r, r.inReplyTo = some message.messageId ∧ (safeHandle a d message).run s = (.ok (some r), s)) ∨
    ¬ (a.flagged d ∨ returns d.outcome = true) ∧ ∃ e, (safeHandle a d message).run s = (.error e, s) := by
  unfold safeHandle
  by_cases hf : a.flagged d
  · simp only [if_pos hf]
    exact .inl ⟨.inl hf, _, rfl, rfl⟩
  · simp only [if_neg hf]
    cases ho : d.outcome with
    | inform content => exact .inl ⟨.inr rfl, _, rfl, rfl⟩
    | refuse reason => exact .inl ⟨.inr rfl, _, rfl, rfl⟩
    | adapterError name => exact .inl ⟨.inr rfl, _, rfl, rfl⟩
    | skip => exact absurd ho hskip
    | error => exact .inr ⟨by simp [returns, hf], _, rfl⟩
    | cancelled => exact .inr ⟨by simp [returns, hf], _, rfl⟩

theorem readOnce_new (a : AgentConfig) (hskip : d.outcome ≠ .skip) (hp : d.payload = some message)
    (hnew : message.messageId ∉ s.receiver.seen) :
    Handled a d message s ((readOnce a (.entry d)).run s).2 := by
  have hfst : (s.receiver.accept message.messageId).1 = true := by
    rw [IdempotentReceiver.accept_fst]; simpa using hnew
  let s1 : Agent := { s with receiver := (s.receiver.accept message.messageId).2, handled := d :: s.handled }
  have haccept : (acceptMessage d message).run s = (.ok true, s1) := by
    simp [acceptMessage, Exec.run_bind, hfst, s1]
  have hrun : (readOnce a (.entry d)).run s = (safeHandle a d message >>= answer d message).run s1 := by
    simp only [readOnce, hp]
    rw [Exec.run_bind_ok haccept]
    rfl
  rw [hrun]
  rcases run_safeHandle a hskip message s1 with ⟨hret, r, hr, h1⟩ | ⟨hno, e, h1⟩
  · rw [Exec.run_bind_ok h1]
    dsimp only [answer]
    cases hpub : d.publish with
    | ok =>
      have h2 : (publishReply d r).run s1 = (.ok (), { s1 with inbox := r :: s1.inbox }) := by
        simp [publishReply, hpub]
      rw [Exec.run_bind_ok h2, run_ackMessage]
      refine ⟨by split <;> rfl, .inl ⟨⟨hret, by simp [hpub]⟩, r, hr, ?_, ?_⟩⟩ <;> split <;> simp [s1]
    | failed sent =>
      cases sent with
      | true =>
        have h2 : (publishReply d r).run s1 = (.error .bus, { s1 with inbox := r :: s1.inbox }) := by
          simp [publishReply, hpub, Exec.run_bind]
        rw [Exec.run_bind_error h2]
        exact ⟨rfl, .inl ⟨⟨hret, by simp [hpub]⟩, r, hr, rfl, .inl rfl⟩⟩
      | false =>
        have h2 : (publishReply d r).run s1 = (.error .bus, s1) := by simp [publishReply, hpub]
        rw [Exec.run_bind_error h2]
        exact ⟨rfl, .inr ⟨by simp [Answering, hpub], rfl, rfl⟩⟩
  · rw [Exec.run_bind_error h1]
    exact ⟨rfl, .inr ⟨fun h => hno h.1, rfl, rfl⟩⟩

theorem readOnce_cached (a : AgentConfig) (hp : d.payload = some message)
    (hseen : message.messageId ∈ s.receiver.seen) :
    ((readOnce a (.entry d)).run s).2.handled = s.handled ∧
    ((readOnce a (.entry d)).run s).2.inbox = s.inbox ∧
    ((readOnce a (.entry d)).run s).2.acked =
      if d.ack = .failed false then s.acked else ⟨message, s.inbox⟩ :: s.acked := by
  have hfst : (s.receiver.accept message.messageId).1 = false := by
    rw [IdempotentReceiver.accept_fst]; simpa using hseen
  have haccept : (acceptMessage d message).run s =
      (.ok false, { s with receiver := (s.receiver.accept message.messageId).2 }) := by
    simp [acceptMessage, Exec.run_bind, hfst]
  simp only [readOnce, hp]
  rw [Exec.run_bind_ok haccept, if_pos rfl, run_ackMessage]
  split <;> exact ⟨rfl, rfl, rfl⟩

/-- The loop around a round touches the `running` flag only. -/
theorem next_eq (a : AgentConfig) (s : Agent) (x : Arrival) :
    ∃ b, s.next a x = { ((readOnce a x).run s).2 with running := b } := by
  rw [Agent.next, loopRound, Exec.run_attempt]
  generalize (readOnce a x).run s = r
  obtain ⟨e | u, s'⟩ := r
  · by_cases he : e = .cancelled
    · exact ⟨false, by simp [he, Exec.run_bind]⟩
    · exact ⟨s'.running, by simp [he]⟩
  · exact ⟨s'.running, rfl⟩

/-- The inbox holds the replies of the messages that were handled with one. -/
def Trail (a : AgentConfig) (s : Agent) : Prop :=
  ∀ id, (∃ r ∈ s.inbox, r.inReplyTo = some id) ↔ ∃ h ∈ s.handled, messageId? h = some id ∧ Answering a h

theorem Trail.handled {s' : Agent} (ht : Trail a s) (hid : messageId? d = some message.messageId)
    (h : Handled a d message s s') : Trail a s' := by
  intro id
  have ht := ht id
  rw [h.handled, List.exists_mem_cons_iff, hid]
  rcases h.outcome with ⟨hans, r, hr, hin, -⟩ | ⟨hno, hin, -⟩
  · rw [hin, List.exists_mem_cons_iff, ht, hr]
    simp [hans]
  · rw [hin, ht]
    simp [hno]

theorem redelivered_cached (ht : Trail a s) (hid : messageId? d = some message.messageId)
    (hseen : message.messageId ∈ s.receiver.seen) :
    Redelivered a s (.entry d) ↔ (d.ack ≠ .failed false → Answered ⟨message, s.inbox⟩) := by
  rw [Redelivered, hid]
  simp only [Option.mem_some_iff, forall_eq', hseen, true_imp_iff, Answered, ht message.messageId]

theorem redelivered_new (hid : messageId? d = some message.messageId)
    (hseen : message.messageId ∉ s.receiver.seen) : Redelivered a s (.entry d) := by
  rw [Redelivered, hid]
  rintro id ⟨⟩ hin
  exact absurd hin hseen

/-- **Step.** A round keeps the trail, and acknowledges without a reply exactly if the
message was cached and had none. -/
theorem answered_next (a : AgentConfig) (ht : Trail a s) {x : Arrival} (hx : NoSkip x) :
    Trail a (s.next a x) ∧
      ((∀ e ∈ (s.next a x).acked, Answered e) ↔ (∀ e ∈ s.acked, Answered e) ∧ Redelivered a s x) := by
  obtain ⟨b, hb⟩ := next_eq a s x
  rw [hb]
  cases x with
  | unavailable => exact ⟨ht, by simp [readOnce, Redelivered]⟩
  | nothing => exact ⟨ht, by simp [readOnce, Redelivered]⟩
  | entry d =>
    cases hp : d.payload with
    | none =>
      have hsame : ((readOnce a (.entry d)).run s).2 = s := by simp [readOnce, hp]
      rw [hsame]
      exact ⟨ht, by simp [Redelivered, messageId?, hp]⟩
    | some message =>
      have hid : messageId? d = some message.messageId := by simp [messageId?, hp]
      by_cases hseen : message.messageId ∈ s.receiver.seen
      · obtain ⟨hh, hin, hack⟩ := readOnce_cached a hp hseen
        refine ⟨fun id => by rw [hin, hh]; exact ht id, ?_⟩
        rw [redelivered_cached ht hid hseen]
        dsimp only
        rw [hack]
        by_cases hf : d.ack = .failed false
        · simp [hf]
        · rw [if_neg hf, List.forall_mem_cons, and_comm]
          simp [hf]
      · have hn := readOnce_new a hx hp hseen
        have hkeep : Trail a ((readOnce a (.entry d)).run s).2 := ht.handled hid hn
        refine ⟨hkeep, ?_⟩
        rw [and_iff_left (redelivered_new hid hseen)]
        dsimp only
        rcases hn.outcome with ⟨-, r, hr, -, hack | hack⟩ | ⟨-, -, hack⟩
        · rw [hack]
        · rw [hack, List.forall_mem_cons, and_iff_right]
          exact ⟨r, List.mem_cons_self, hr⟩
        · rw [hack]

end

/-! ## Runs -/

/-- The rounds of `run`, until the task is cancelled. -/
def agentRuns (a : AgentConfig) : LTS Agent Arrival :=
  LTS.guarded Agent.Started (fun s x => s.running = true ∧ NoSkip x) (Agent.next a)

/-- **Run.** -/
theorem answered_run (a : AgentConfig) {s s' : Agent} {xs : List Arrival} (hr : (agentRuns a).Run s xs s') :
    Trail a s → ((∀ e ∈ s'.acked, Answered e) ↔
      (∀ e ∈ s.acked, Answered e) ∧ LTS.Admits (Redelivered a) (Agent.next a) s xs) := by
  induction hr with
  | nil => intro _; simp [LTS.Admits]
  | cons hs _ ih =>
    obtain ⟨⟨-, hx⟩, rfl⟩ := hs
    intro ht
    obtain ⟨ht', hiff⟩ := answered_next a ht hx
    rw [ih ht', hiff, LTS.Admits, and_assoc]

/-- **When no request is acknowledged unanswered.** -/
theorem acked_answered_iff (a : AgentConfig) {s₀ s : Agent} {xs : List Arrival} (h0 : s₀.Started)
    (hr : (agentRuns a).Run s₀ xs s) :
    (∀ e ∈ s.acked, Answered e) ↔ LTS.Admits (Redelivered a) (Agent.next a) s₀ xs := by
  obtain ⟨-, -, hin, hh, hack⟩ := h0
  have ht : Trail a s₀ := fun id => by simp [hin, hh]
  rw [answered_run a hr ht, hack]
  simp

/-- The transcriber, and its request. -/
def transcriber : AgentConfig := ⟨"TranscriberAgent", .f1Transcribe⟩

def request : Message where
  messageId := "msg-1"
  performative := .request
  sender := "CoordinatorAgent"
  receiver := "TranscriberAgent"
  taskId := "t1"
  conversationId := "conv-t1-F1"
  content := []
  timestamp := ""
  subtaskId := some "st-t1-F1"

theorem cache_pos : 0 < 1000 := by decide

def started : Agent := { receiver := .new 1000 cache_pos }

theorem started_started : started.Started := ⟨rfl, rfl, rfl, rfl, rfl⟩

/-- The request is delivered twice, and the first time its handler does this. -/
def deliveredTwice (first : HandlerOutcome) : List Arrival :=
  [.entry { entryId := "1-0", payload := some request, outcome := first },
    .entry { entryId := "1-0", payload := some request, outcome := .inform [] }]

theorem acked_answered_iff_informed :
    ((deliveredTwice (.inform [])).foldl (Agent.next transcriber) started).acked.length = 2 ∧
      ∀ e ∈ ((deliveredTwice (.inform [])).foldl (Agent.next transcriber) started).acked, Answered e := by
  refine ⟨by decide, (acked_answered_iff transcriber started_started (LTS.run_foldl ?_)).mpr ?_⟩
  · exact ⟨⟨rfl, by simp [NoSkip]⟩, ⟨⟨by decide, by simp [NoSkip]⟩, trivial⟩⟩
  · refine ⟨?_, ?_, trivial⟩
    · rintro id - hseen
      cases hseen
    · rintro id ⟨⟩ - -
      exact ⟨_, List.mem_cons_self, rfl, by decide⟩

/-- **Counterexample**: the handler raises, the request comes again and is acknowledged, and
no reply was ever published. -/
theorem raised_then_acked :
    ∃ s, (agentRuns transcriber).Run started (deliveredTwice .error) s ∧ started.Started ∧ s.inbox.length = 0 ∧
      ∃ e ∈ s.acked, ¬ Answered e :=
  ⟨_, LTS.run_foldl ⟨⟨rfl, by simp [NoSkip]⟩, ⟨⟨by decide, by simp [NoSkip]⟩, trivial⟩⟩, started_started, rfl,
    ⟨request, []⟩, List.mem_singleton.mpr rfl, by simp [Answered]⟩

end MasResearch.Bugs.UnansweredAck
