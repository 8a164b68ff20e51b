import MasResearch.L3Runs.Traffic

/-!
# A late refusal is charged to an attempt that was never made

Each subtask has `RETRY_MAX + 1` attempts: the coordinator "re-publishes up to RETRY_MAX
times" (src/core/retry.py:3) and both retry tests see a subtask fail after its second
re-publication (tests/unit/test_coordinator_dispatch.py:111-153). A timeout and a refusal
each charge one retry (src/agents/coordinator.py:283-308), and replies are matched by
subtask, not by attempt (src/agents/coordinator.py:224-232). An attempt that timed out and
is then refused during its back-off is charged twice, so the second charge pays for a
re-publication that never takes place.

Counterexample (`refused_twice`): the request made at 0 times out at 601, its refusal
arrives at 1203/2, and the one re-publication times out at 1207: the subtask fails with its
retries exhausted after two requests, and reports two retries for one re-publication.

`retries_spent_iff`: in every run in which each request receives at most one reply, a subtask
that failed with its retries exhausted was requested `RETRY_MAX + 1` times exactly if no
refusal was routed to it during a back-off.
-/
namespace MasResearch.Bugs.DoubleCharge

open MasResearch.L1 MasResearch.L2 MasResearch.L3 Relation TaskState

/-- The reply answers a request of the history that no routed reply answered. -/
def AnswersOnce (h : List Event) (m : Message) : Prop :=
  ∃ channel sub results request t, Event.published channel sub results request t ∈ h ∧
    m.taskId = request.taskId ∧ m.subtaskId = request.subtaskId ∧ m.inReplyTo = some request.messageId ∧
    ∀ m', Event.routed m' ∈ h → m'.inReplyTo ≠ some request.messageId

/-- Tasks are started by `submit`; each request receives at most one reply, at any time. -/
def onceAnswered : Assumptions where
  resumes _ _ := False
  reply _ := AnswersOnce

theorem own_onceAnswered : onceAnswered.Own := by
  rintro s h m ⟨channel, sub, results, request, t, hp, htask, hsid, -⟩
  exact ⟨channel, sub, results, request, t, hp, htask, hsid⟩

/-- The subtask failed, and `_schedule_retry_or_fail` has no retry left for it. -/
def Exhausted (s : TaskState) (sid : String) : Prop :=
  s.results.get? sid = some none ∧ retryMax ≤ s.retries sid

/-- A refusal that found its subtask pending in a back-off, with no deadline in force. -/
def Stray (sid : String) (r : Routing) : Bool :=
  r.reply.performative = .refuse ∧ r.reply.subtaskId = some sid ∧ sid ∈ r.before.pending ∧
    sid ∉ r.before.deadlines

/-- The stray refusals of the subtask. -/
def strays (sid : String) (log : List Routing) : Nat := log.countP (Stray sid)

/-! ## Counterexample -/

/-- The transcriber's refusal of the first request, sent after its deadline. -/
def refusal : Message where
  messageId := "msg-late"
  performative := .refuse
  sender := "TranscriberAgent"
  receiver := "CoordinatorAgent"
  taskId := "t1"
  conversationId := "conv-t1-F1"
  content := [("reason", .str "overloaded")]
  timestamp := ""
  inReplyTo := some "msg-2"
  subtaskId := some "st-t1-F1"

/-- After the submission. -/
def late : Script := [(none, 601), (some refusal, 1203 / 2), (none, 606), (none, 1207)]

def trace : List Action := .submit lecture 0 :: late.actions

def final : Audited := trace.foldl (Audited.next Env.faultless {}) { coordinator := Coordinator.idle }

/-- The event is the request that the message answers. -/
def answeredBy (m : Message) : Event → Bool
  | .published _ _ _ request _ =>
    m.taskId = request.taskId ∧ m.subtaskId = request.subtaskId ∧ m.inReplyTo = some request.messageId
  | _ => false

/-- The event is no reply to the same request. -/
def leavesOpen (m : Message) : Event → Bool
  | .routed m' => m'.inReplyTo ≠ m.inReplyTo
  | _ => true

def onceTests : Tests where
  reply _ h m := h.any (answeredBy m) && h.all (leavesOpen m)
  timely _ _ := true

theorem sound_onceTests : onceTests.Sound onceAnswered where
  reply s h m ha := by
    obtain ⟨hask, hopen⟩ := Bool.and_eq_true_iff.mp ha
    obtain ⟨e, he, hask⟩ := List.any_eq_true.mp hask
    cases e with
    | published channel sub results request t =>
      simp only [answeredBy, decide_eq_true_eq] at hask
      refine ⟨channel, sub, results, request, t, he, hask.1, hask.2.1, hask.2.2, fun m' hm' => ?_⟩
      rw [← hask.2.2]
      exact of_decide_eq_true (List.all_eq_true.mp hopen _ hm')
    | _ => cases hask
  timely _ _ _ := trivial
  idle _ := trivial

theorem plays_late : onceTests.plays Env.faultless {} "t1" (.submit lecture 0) late = true := by
  decide +kernel

theorem reachable_final : (audited onceAnswered Env.faultless {}).Reachable final :=
  LTS.reachable_foldl ⟨initial_idle, rfl, rfl⟩
    (admits_audited (sound_onceTests.admits_submit trivial plays_late))

/-- A finalization that found F1 failed after two retries. -/
def spent : Event → Bool
  | .finalizing _ _ s => (s.results.get? "st-t1-F1").any Option.isNone ∧ s.retries "st-t1-F1" = 2
  | _ => false

theorem exhausted_of_spent {h : List Event} (hs : h.any spent = true) : ∃ cause status s,
    Event.finalizing cause status s ∈ h ∧ Exhausted s "st-t1-F1" ∧ s.retries "st-t1-F1" = 2 := by
  obtain ⟨e, he, hspent⟩ := List.any_eq_true.mp hs
  cases e with
  | finalizing cause status s =>
    simp only [spent, decide_eq_true_eq] at hspent
    obtain ⟨hnone, hret⟩ := hspent
    obtain ⟨v, hv, hvn⟩ := (Option.any_eq_true _ _).mp hnone
    obtain rfl : v = none := Option.isNone_iff_eq_none.mp hvn
    exact ⟨cause, status, s, he, ⟨hv, hret.ge⟩, hret⟩
  | _ => cases hspent

/-- **Counterexample.** F1 fails with its retries exhausted after two requests, not three,
and its two retries stand for one re-publication. -/
theorem refused_twice : (audited onceAnswered Env.faultless {}).Reachable final ∧
    ∃ cause status s, Event.finalizing cause status s ∈ (final.coordinator.outside "t1").history ∧
      Exhausted s "st-t1-F1" ∧ requests "st-t1-F1" (final.coordinator.outside "t1").history = 2 ∧
      s.retries "st-t1-F1" = 2 ∧ retryMax + 1 = 3 := by
  obtain ⟨cause, status, s, hf, hx, hret⟩ :=
    exhausted_of_spent (show (final.coordinator.outside "t1").history.any spent = true by decide +kernel)
  exact ⟨reachable_final, cause, status, s, hf, hx, by decide +kernel, hret, rfl⟩

/-! ## What each charge pays for -/

/-- A request in flight is yet to be charged; a charge beyond the requests is a stray refusal. -/
structure Tally (s : TaskState) (h : List Event) (log : List Routing) : Prop where
  unasked : ∀ sid, sid ∉ s.published → s.retries sid = 0
  pending : ∀ sid ∈ s.pending, requests sid h + strays sid log = s.retries sid + unit (sid ∈ s.deadlines)
  failed : ∀ sid, Exhausted s sid → requests sid h + strays sid log = retryMax + 1

/-- The same of the subtasks a finalization found exhausted. -/
def Spent (h : List Event) (log : List Routing) : Prop := ∀ cause status s, Event.finalizing cause status s ∈ h →
  ∀ sid, Exhausted s sid → requests sid h + strays sid log = retryMax + 1 ∧ s.retries sid = retryMax

section

variable {s : TaskState} {h : List Event} {log : List Routing} {sid : String}

theorem Tally.congr (ht : Tally s h log) {h' : List Event} {log' : List Routing}
    (hk : ∀ k, requests k h' + strays k log' = requests k h + strays k log) : Tally s h' log' :=
  ⟨ht.unasked, fun k hp => by rw [hk]; exact ht.pending k hp, fun k hx => by rw [hk]; exact ht.failed k hx⟩

/-- A request, for a subtask with no deadline in force. -/
theorem Tally.published {c : Ctx} (ht : Tally c.state c.outside.history log) {sub : Subtask}
    (hres : sub.id ∉ c.state.results) (hd : sub.id ∉ c.state.deadlines) (env : Env) (cfg : Config) (now : ℚ) :
    Tally (c.published env cfg now sub).state (c.published env cfg now sub).outside.history log where
  unasked k hk := ht.unasked k fun hpub => hk (Finset.mem_insert_of_mem hpub)
  pending k hk := by
    have := ht.pending k hk
    show requests k (_ :: c.outside.history) + _ =
      c.state.retries k + unit (k ∈ c.state.deadlines.set sub.id (now + cfg.timeoutFor sub.agent))
    rw [requests_published]
    by_cases he : sub.id = k
    · subst he
      rw [unit_false hd] at this
      rw [unit_true rfl, unit_true (by simp)]
      omega
    · have : unit (k ∈ c.state.deadlines.set sub.id (now + cfg.timeoutFor sub.agent)) =
          unit (k ∈ c.state.deadlines) := by simp [unit, Ne.symm he]
      rw [unit_false he]
      omega
  failed k hx := by
    have hx : Exhausted c.state k := hx
    have hne : sub.id ≠ k := by
      rintro rfl
      exact hres (Dict.mem_of_get? hx.1)
    show requests k (_ :: c.outside.history) + _ = _
    rw [requests_published, unit_false hne]
    exact ht.failed k hx

/-- `Tally` of every subtask but `sid`. -/
structure Others (sid : String) (s : TaskState) (h : List Event) (log : List Routing) : Prop where
  unasked : ∀ k, k ∉ s.published → s.retries k = 0
  pending : ∀ k ∈ s.pending, k ≠ sid → requests k h + strays k log = s.retries k + unit (k ∈ s.deadlines)
  failed : ∀ k, Exhausted s k → requests k h + strays k log = retryMax + 1

theorem Tally.others (ht : Tally s h log) : Others sid s h log :=
  ⟨ht.unasked, fun k hp _ => ht.pending k hp, ht.failed⟩

/-- The deadline of `sid` goes, and maybe a message for it comes. -/
theorem Tally.dropDeadline (ht : Tally s h log) {h' : List Event} {log' : List Routing} {s' : TaskState}
    (hs' : s' = s.dropDeadline sid ∨ s' = s.countMessage.dropDeadline sid) (hres : sid ∉ s.results)
    (hk : ∀ k, k ≠ sid → requests k h' + strays k log' = requests k h + strays k log) : Others sid s' h' log' := by
  have hother : ∀ k, k ≠ sid → unit (k ∈ s.deadlines.erase sid) = unit (k ∈ s.deadlines) := fun k hne => by
    simp [unit, hne]
  rcases hs' with rfl | rfl <;>
    exact ⟨ht.unasked, fun k hp hne => by rw [hk k hne, ht.pending k hp]; exact congrArg _ (hother k hne).symm,
      fun k hx => (hk k (by rintro rfl; exact hres (Dict.mem_of_get? hx.1))).trans (ht.failed k hx)⟩

/-- A failed subtask leaves the pending ones; its requests are accounted for. -/
theorem Others.fail (ho : Others sid s h log)
    (hsid : retryMax ≤ s.retries sid → requests sid h + strays sid log = retryMax + 1) (reason : String) (now : ℚ) :
    Tally (s.fail sid reason now) h log where
  unasked k hk := ho.unasked k fun hpub => hk (Finset.mem_insert_of_mem hpub)
  pending k hk := by
    obtain ⟨hne, hp⟩ := Finset.mem_erase.mp hk
    have hd : unit (k ∈ (s.fail sid reason now).deadlines) = unit (k ∈ s.deadlines) := by
      simp [unit, TaskState.fail, hne]
    rw [hd]
    exact ho.pending k hp hne
  failed k hx := by
    obtain ⟨hnone, hret⟩ := hx
    have hret : retryMax ≤ s.retries k := hret
    simp only [TaskState.fail, Dict.get?_set] at hnone
    split at hnone
    · rename_i he
      subst he
      exact hsid hret
    · exact ho.failed k ⟨hnone, hret⟩

/-- The charge for a request, or for a stray refusal, that `s` was not charged for yet. -/
theorem Others.charged (ho : Others sid s h log) (hres : sid ∉ s.results) (hmax : s.retries sid ≤ retryMax)
    (hpub : sid ∈ s.published) (hd : sid ∉ s.deadlines)
    (hsid : requests sid h + strays sid log = s.retries sid + 1) (reason : String) (now : ℚ) :
    Tally (s.retryOrFail sid reason now) h log := by
  rcases Nat.lt_or_ge (s.retries sid) retryMax with hlt | hge
  · rw [retryOrFail_of_lt hlt]
    have hret := retries_countRetry s sid
    constructor
    case unasked =>
      intro k hk
      have hk : k ∉ s.published := hk
      show (s.countRetry sid).retries k = 0
      rw [hret, if_neg (by rintro rfl; exact hk hpub)]
      exact ho.unasked k hk
    case pending =>
      intro k hk
      show _ = (s.countRetry sid).retries k + unit (k ∈ s.deadlines)
      rw [hret]
      by_cases he : k = sid
      · subst he
        rw [if_pos rfl, unit_false hd, hsid, Nat.add_zero]
      · rw [if_neg he]
        exact ho.pending k hk he
    case failed =>
      intro k hx
      obtain ⟨hnone, hk⟩ := hx
      have hnone : s.results.get? k = some none := hnone
      have hk : retryMax ≤ (s.countRetry sid).retries k := hk
      have hne : k ≠ sid := by
        rintro rfl
        exact hres (Dict.mem_of_get? hnone)
      rw [hret, if_neg hne] at hk
      exact ho.failed k ⟨hnone, hk⟩
  · rw [retryOrFail_of_le hge]
    exact ho.fail (fun _ => by omega) reason now

@[simp] theorem strays_append (k : String) (r : Routing) :
    strays k (log ++ [r]) = strays k log + unit (Stray k r = true) := by
  rw [strays, List.countP_append, List.countP_singleton]
  rfl

theorem requests_routed (k : String) (m : Message) : requests k (.routed m :: h) = requests k h :=
  requests_quiet (by simp)

/-- A reply that is not a stray refusal leaves the sum as it is. -/
theorem requests_strays_routed {k : String} {r : Routing} (hno : ¬ Stray k r = true) :
    requests k (.routed r.reply :: h) + strays k (log ++ [r]) = requests k h + strays k log := by
  rw [requests_routed, strays_append, unit_false hno, Nat.add_zero]

/-- A routed reply to a request of the coordinator. -/
theorem Tally.routed (ht : Tally s h log) (hex : s.Exact) (hreq : Requested s h) {m : Message} (hans : Answers h m)
    {env : Env} {now : ℚ} {jobs : List Job} {s' : TaskState} (hr : Routed env now m s jobs s') :
    Tally s' (.routed m :: h) (log ++ [⟨m, s, jobs, s'⟩]) := by
  cases hr with
  | ignored hi =>
    refine ht.congr fun k => requests_strays_routed (r := ⟨m, s, [], s⟩) ?_
    simp only [Stray, decide_eq_true_eq]
    rintro ⟨-, hk, hp, -⟩
    exact hi k hk hp
  | @informed sid sub hsid hp hperf hg =>
    let r : Routing := ⟨m, s, [⟨s.task.id, sub.operation, m.content⟩],
      (s.countMessage.dropDeadline sid).inform sid m.content now⟩
    have ho : Others sid (s.countMessage.dropDeadline sid) _ _ :=
      ht.dropDeadline (.inr rfl) (hex.disjoint sid hp) fun k _ =>
        requests_strays_routed (r := r) (by simp [Stray, r, hperf])
    constructor
    case unasked => exact ht.unasked
    case pending =>
      intro k hk
      obtain ⟨hne, hp⟩ := Finset.mem_erase.mp hk
      exact ho.pending k hp hne
    case failed =>
      intro k hx
      obtain ⟨hnone, hret⟩ := hx
      simp only [inform, Dict.get?_set] at hnone
      split at hnone
      · cases hnone
      · exact ho.failed k ⟨hnone, hret⟩
  | @refused sid hsid hp href =>
    obtain ⟨channel, sub, results, request, t, hpub, -, he⟩ := hans
    obtain ⟨h1, h2⟩ := hreq _ _ _ _ _ hpub
    obtain rfl : sub.id = sid := by simpa [h1, hsid] using he.symm
    let r : Routing := ⟨m, s, [],
      (s.countMessage.dropDeadline sub.id).retryOrFail sub.id (refuseReason env m) now⟩
    have ho : Others sub.id (s.countMessage.dropDeadline sub.id) _ _ :=
      ht.dropDeadline (.inr rfl) (hex.disjoint _ hp) fun k hne =>
        requests_strays_routed (r := r) (by simp [Stray, r, hsid, Ne.symm hne])
    refine ho.charged (hex.disjoint _ hp) (hex.retries sub.id) h2 (by simp [TaskState.dropDeadline]) ?_ _ now
    -- the refused request was in flight, or the refusal is a stray one
    have hself := ht.pending _ hp
    show requests sub.id (.routed r.reply :: h) + strays sub.id (log ++ [r]) = s.retries sub.id + 1
    by_cases hd : sub.id ∈ s.deadlines
    · have hno : ¬ Stray sub.id r = true := by simp [Stray, r, hd]
      rw [unit_true hd] at hself
      rw [requests_strays_routed hno, hself]
    · have hyes : Stray sub.id r = true := by simp [Stray, r, hd, hsid, href, hp]
      rw [unit_false hd] at hself
      rw [requests_routed, strays_append, unit_true hyes]
      omega

theorem Tally.move {c : Ctx} {o : Outside} {env : Env} {cfg : Config} {now : ℚ} (ht : Tally s o.history log)
    (hex : s.Exact) (hm : Move env cfg now ⟨s, o⟩ c) : Tally c.state c.outside.history log := by
  cases hm with
  | @ready sub hs hpub hpend =>
    exact Tally.published (c := ⟨s, o⟩) ht (hex.disjoint _ hpend) (hex.idle _ hpend hpub).1 env cfg now
  | @skip sub reason hs hpub hpend =>
    -- a skipped subtask was never requested, so no retry was charged to it
    have hzero := ht.unasked _ hpub
    refine ht.others.fail (fun hge => ?_) reason now
    have hge : retryMax ≤ s.retries sub.id := hge
    rw [hzero] at hge
    exact absurd hge (by decide)
  | @expire sid d hd hlt =>
    have hmem := Dict.mem_of_get? hd
    have hp := hex.timers sid (.inl hmem)
    have hpub : sid ∈ s.published := by
      by_contra hn
      exact (hex.idle sid hp hn).1 hmem
    have hself := ht.pending sid hp
    rw [unit_true hmem] at hself
    have ho : Others sid (s.dropDeadline sid) o.history log :=
      ht.dropDeadline (.inl rfl) (hex.disjoint sid hp) fun _ _ => rfl
    exact ho.charged (hex.disjoint sid hp) (hex.retries sid) hpub (by simp [TaskState.dropDeadline]) hself _ now
  | @again sid due sub hr hle hs =>
    obtain ⟨hsub, rfl⟩ := Plan.mem_of_get? hs
    have hmem := Dict.mem_of_get? hr
    have hres := hex.disjoint _ (hex.timers sub.id (.inr hmem))
    have ht' : Tally (s.dropRetry sub.id) o.history log := ⟨ht.unasked, ht.pending, ht.failed⟩
    exact Tally.published (c := ⟨s.dropRetry sub.id, o⟩) ht' hres (fun hd => hex.single _ hd hmem) env cfg now

/-! ## Runs -/

/-- What was exhausted stays so: its subtask is resolved, and nothing is published or charged
for a resolved subtask. -/
theorem Spent.step (hs : Spent h log) (hc : Chronicle s h) {h' : List Event} {log' : List Routing}
    (hfin : ∀ cause status s', Event.finalizing cause status s' ∈ h' → Event.finalizing cause status s' ∈ h)
    (hk : ∀ k ∈ s.results, requests k h' + strays k log' = requests k h + strays k log) : Spent h' log' := by
  intro cause status s' hf k hx
  have hf := hfin cause status s' hf
  have hmem : k ∈ s.results := (hc.below _ hf s'.results rfl).mem (Dict.mem_of_get? hx.1)
  rw [hk k hmem]
  exact hs cause status s' hf k hx

theorem Spent.move {c : Ctx} {o : Outside} {env : Env} {cfg : Config} {now : ℚ} (hs : Spent o.history log)
    (hc : Chronicle s o.history) (hwf : s.Wf) (hm : Move env cfg now ⟨s, o⟩ c) : Spent c.outside.history log := by
  cases hm with
  | skip => exact hs
  | expire => exact hs
  | @ready sub _ _ hp =>
    refine hs.step hc (fun cause status s' hf => by simpa [Ctx.published] using hf) fun k hk => ?_
    have hne : sub.id ≠ k := by rintro rfl; exact hwf.disjoint _ hp hk
    simp only [Ctx.published, Outside.note_history, requests_published, unit_false hne, Nat.add_zero]
  | @again sid _ sub hr _ hg =>
    obtain ⟨-, rfl⟩ := Plan.mem_of_get? hg
    refine hs.step hc (fun cause status s' hf => by simpa [Ctx.published, Ctx.update] using hf) fun k hk => ?_
    have hne : sub.id ≠ k := by
      rintro rfl
      exact hwf.disjoint _ (hwf.timers _ (.inr (Dict.mem_of_get? hr))) hk
    simp only [Ctx.published, Ctx.update, Outside.note_history, requests_published, unit_false hne, Nat.add_zero]

theorem Spent.routed {m : Message} {jobs : List Job} {s' : TaskState} (hs : Spent h log) (hc : Chronicle s h)
    (hwf : s.Wf) : Spent (.routed m :: h) (log ++ [⟨m, s, jobs, s'⟩]) := by
  refine hs.step hc (fun cause status s' hf => by simpa using hf) fun k hk => ?_
  have hno : ¬ Stray k ⟨m, s, jobs, s'⟩ = true := by
    simp only [Stray, decide_eq_true_eq]
    rintro ⟨-, -, hp, -⟩
    exact hwf.disjoint k hp hk
  rw [requests_routed, strays_append, unit_false hno, Nat.add_zero]

theorem Spent.quiet (hs : Spent h log) {e : Event} (hq : e.quiet = true) : Spent (e :: h) log := by
  intro cause status s' hf k hx
  rw [requests_quiet (by rintro _ _ _ _ _ rfl; cases hq)]
  rcases List.mem_cons.mp hf with rfl | hf
  · cases hq
  · exact hs cause status s' hf k hx

/-- What a registered state, its history and its log keep. -/
structure Charges (s : TaskState) (h : List Event) (log : List Routing) : Prop where
  exact : s.Exact ∧ Requested s h
  chronicle : Chronicle s h
  tally : Tally s h log
  spent : Spent h log

end

theorem logInv_charges {A : Assumptions} (hA : A.Own) (env : Env) (cfg : Config) :
    LogInv A env cfg Charges Spent where
  submitted task now hs := ⟨(taskInv_exact hA env cfg).submitted task now hs,
    (taskInv_chronicle A env cfg).submitted task now hs,
    ⟨fun _ _ => rfl, fun _ _ => rfl, fun _ hx => by cases hx.1⟩, fun _ _ _ hf => by cases hf⟩
  resumed task results now hs := ⟨(taskInv_exact hA env cfg).resumed task results now hs,
    (taskInv_chronicle A env cfg).resumed task results now hs,
    ⟨fun _ _ => rfl, fun _ _ => rfl, fun _ hx => by cases hx.2⟩, fun _ _ _ hf => by cases hf⟩
  move hI hwf hm ht := ⟨(taskInv_exact hA env cfg).move hI.exact hwf hm ht,
    (taskInv_chronicle A env cfg).move hI.chronicle hwf hm ht, hI.tally.move hI.exact.1 hm,
    hI.spent.move hI.chronicle hwf hm⟩
  routed hI hwf _ hans hr := ⟨(taskInv_exact hA env cfg).routed hI.exact hwf hans hr,
    (taskInv_chronicle A env cfg).routed hI.chronicle hwf hans hr,
    hI.tally.routed hI.exact.1 hI.exact.2 (hA _ _ _ hans) hr, hI.spent.routed hI.chronicle hwf⟩
  finalizing := by
    intro now s h log cause hI hwf hf
    refine ⟨(taskInv_exact hA env cfg).finalizing cause hI.exact hwf hf,
      (taskInv_chronicle A env cfg).finalizing cause hI.chronicle hwf hf, hI.tally.congr fun k => ?_, ?_⟩
    · rw [requests_quiet (by simp)]
    · intro cause' status' s' hm k hx
      rw [requests_quiet (by simp)]
      rcases List.mem_cons.mp hm with he | hm
      · cases he
        exact ⟨hI.tally.failed k hx, Nat.le_antisymm (hwf.retries k) hx.2⟩
      · exact hI.spent _ _ _ hm k hx
  recorded := by
    intro s h e log hI hq
    refine ⟨(taskInv_exact hA env cfg).recorded hI.exact hq,
      (taskInv_chronicle A env cfg).recorded hI.chronicle hq, hI.tally.congr fun k => ?_, hI.spent.quiet hq⟩
    rw [requests_quiet (by rintro _ _ _ _ _ rfl; cases hq)]
  history hI := hI.spent
  empty _ _ _ hf := by cases hf
  quiet hs hq := hs.quiet hq

/-- **When the attempts add up.** In every run in which each request receives at most one
reply, a subtask that failed with its retries exhausted was requested `RETRY_MAX + 1` times,
and reports as many retries as it had re-publications, exactly if no refusal was routed to
it while it was pending with no deadline in force. -/
theorem retries_spent_iff (env : Env) (cfg : Config) {p : Audited}
    (hr : (audited onceAnswered env cfg).Reachable p) {tid : String} {s : TaskState}
    (hs : p.coordinator.tasks.get? tid = some s ∨
      ∃ cause status, Event.finalizing cause status s ∈ (p.coordinator.outside tid).history)
    {sub : Subtask} (hx : Exhausted s sub.id) (now : ℚ) :
    (requests sub.id (p.coordinator.outside tid).history = retryMax + 1 ∧
      (failedOperation s now sub).retries + 1 = requests sub.id (p.coordinator.outside tid).history) ↔
    ∀ r ∈ ofTask tid p.log, ¬ (r.reply.performative = .refuse ∧ r.reply.subtaskId = some sub.id ∧
      sub.id ∈ r.before.pending ∧ sub.id ∉ r.before.deadlines) := by
  have hslots := (logInv_charges own_onceAnswered env cfg).onAudited.reachable p hr
  obtain ⟨hsum, hret⟩ : requests sub.id (p.coordinator.outside tid).history + strays sub.id (ofTask tid p.log) =
      retryMax + 1 ∧ s.retries sub.id = retryMax := by
    rcases hs with hs | ⟨cause, status, hf⟩
    · have hI := (hslots.2 tid).state s hs
      exact ⟨hI.tally.failed _ hx, Nat.le_antisymm (hI.exact.1.retries _) hx.2⟩
    · exact (hslots.2 tid).told cause status s hf _ hx
  have hfigure : (failedOperation s now sub).retries = retryMax := hret
  have hzero : strays sub.id (ofTask tid p.log) = 0 ↔ ∀ r ∈ ofTask tid p.log, ¬ (r.reply.performative = .refuse ∧
      r.reply.subtaskId = some sub.id ∧ sub.id ∈ r.before.pending ∧ sub.id ∉ r.before.deadlines) := by
    simp only [strays, List.countP_eq_zero, Stray, decide_eq_true_eq]
  rw [← hzero, hfigure]
  omega

/-- Three attempts: the second is refused in time, and the others time out. -/
def mixed : Script :=
  [(none, 601), (none, 602), (some { refusal with inReplyTo := some "msg-3" }, 700), (none, 704), (none, 1305)]

def tried : Audited := (.submit lecture 0 :: mixed.actions).foldl
  (Audited.next Env.faultless {}) { coordinator := Coordinator.idle }

theorem plays_mixed : onceTests.plays Env.faultless {} "t1" (.submit lecture 0) mixed = true := by
  decide +kernel

theorem retries_spent_iff_tried : tried.log.length = 1 ∧
    requests "st-t1-F1" (tried.coordinator.outside "t1").history = retryMax + 1 := by
  obtain ⟨cause, status, s, hf, hx, -⟩ :=
    exhausted_of_spent (show (tried.coordinator.outside "t1").history.any spent = true by decide +kernel)
  have hr : (audited onceAnswered Env.faultless {}).Reachable tried := LTS.reachable_foldl ⟨initial_idle, rfl, rfl⟩
    (admits_audited (sound_onceTests.admits_submit trivial plays_mixed))
  -- the refusal was not stray
  have hnone : (ofTask "t1" tried.log).all (fun r => ¬ (r.reply.performative = .refuse ∧
      r.reply.subtaskId = some "st-t1-F1" ∧ "st-t1-F1" ∈ r.before.pending ∧
        "st-t1-F1" ∉ r.before.deadlines)) = true := by
    decide +kernel
  exact ⟨by decide +kernel, ((retries_spent_iff Env.faultless {} hr (.inr ⟨cause, status, hf⟩)
    (show Exhausted s (subtaskFor "t1" [.f1Transcribe] .f1Transcribe).id from hx) 1305).mpr fun r hr =>
      of_decide_eq_true (List.all_eq_true.mp hnone r hr)).1⟩

end MasResearch.Bugs.DoubleCharge
