import Mathlib.Algebra.BigOperators.Group.Finset.Piecewise
import Mathlib.Algebra.Order.BigOperators.Group.Finset
import MasResearch.L3Runs.Audit

/-!
# The traffic of a task is bounded

Whatever floods the inbox, a subtask is requested at most `RETRY_MAX + 1` times and at
most `RETRY_MAX + 1` replies for it are counted, so `messages_exchanged` stays below
`2 * (RETRY_MAX + 1)` for each subtask of the plan.

Requests are made by `_advance` and by `_republish_due`, retries are charged by
refusals and by timeouts, and a stale refusal can make a subtask go through both ways
of being requested. `Budget` is the potential that survives every order: a request is
paid for by the subtask's first publication or by a retry, and a back-off in force has
one retry set aside; a counted reply uses up a retry or resolves the subtask.
-/
namespace MasResearch.L3

open MasResearch.L1 MasResearch.L2 Relation TaskState

def requestFor (sid : String) : Event → Bool
  | .published _ sub _ _ _ => sub.id = sid
  | _ => false

/-- The requests published for the subtask. -/
def requests (sid : String) (h : List Event) : Nat := h.countP (requestFor sid)

/-- The reply was counted in `messages_exchanged`. -/
def Routing.counts (sid : String) (r : Routing) : Bool :=
  r.reply.subtaskId = some sid ∧ r.after.messagesExchanged = r.before.messagesExchanged + 1

/-- The counted replies for the subtask. -/
def counted (sid : String) (log : List Routing) : Nat := log.countP (Routing.counts sid)

/-- One if `p`, else nothing. -/
def unit (p : Prop) [Decidable p] : Nat := if p then 1 else 0

section

variable {p q : Prop} [Decidable p] [Decidable q] {sid : String} {h : List Event} {log : List Routing}

theorem unit_le_one : unit p ≤ 1 := by unfold unit; split <;> omega

theorem unit_mono (hpq : p → q) : unit p ≤ unit q := by
  unfold unit
  split
  · rename_i hp; rw [if_pos (hpq hp)]
  · exact Nat.zero_le _

@[simp] theorem unit_true (hp : p) : unit p = 1 := if_pos hp

@[simp] theorem unit_false (hp : ¬ p) : unit p = 0 := if_neg hp

@[simp] theorem requests_nil : requests sid [] = 0 := rfl

@[simp] theorem counted_nil : counted sid [] = 0 := rfl

theorem requests_cons (e : Event) : requests sid (e :: h) = requests sid h + unit (requestFor sid e = true) :=
  List.countP_cons

theorem requests_quiet {e : Event} (he : ∀ channel sub results request t,
    e ≠ .published channel sub results request t) : requests sid (e :: h) = requests sid h := by
  rw [requests_cons, unit_false, Nat.add_zero]
  cases e with
  | published channel sub results request t => exact absurd rfl (he channel sub results request t)
  | _ => simp [requestFor]

@[simp] theorem requests_published (channel : String) (sub : Subtask) (results : Results) (request : Message)
    (t : ℚ) : requests sid (.published channel sub results request t :: h) =
      requests sid h + unit (sub.id = sid) := by
  rw [requests_cons]
  congr 1
  simp [unit, requestFor]

@[simp] theorem counted_append (r : Routing) :
    counted sid (log ++ [r]) = counted sid log + unit (r.counts sid = true) := by
  rw [counted, List.countP_append, List.countP_singleton]
  rfl

end

/-! ## The budget -/

structure Budget (s : TaskState) (h : List Event) (log : List Routing) : Prop where
  requested : ∀ sid, requests sid h + unit (sid ∈ s.retryAt) ≤ s.retries sid + unit (sid ∈ s.published)
  answered : ∀ sid, counted sid log ≤ s.retries sid + unit (sid ∈ s.results)
  exchanged : s.messagesExchanged = ∑ sid ∈ s.plan.ids, (requests sid h + counted sid log)

/-- What a task may exchange. -/
def trafficBound (plan : Plan) : Nat := 2 * (retryMax + 1) * plan.ids.card

/-- No finalization found more messages than the bound. -/
def Moderate (h : List Event) : Prop := ∀ cause status s, Event.finalizing cause status s ∈ h →
  s.messagesExchanged ≤ trafficBound s.plan

theorem Moderate.cons {h : List Event} (hm : Moderate h) {e : Event}
    (he : ∀ cause status s, e ≠ .finalizing cause status s) : Moderate (e :: h) := by
  intro cause status s hf
  rcases List.mem_cons.mp hf with rfl | hf
  · exact absurd rfl (he _ _ _)
  · exact hm cause status s hf

/-- The bounds a history and a log keep. -/
structure Bounded (h : List Event) (log : List Routing) : Prop where
  requested : ∀ sid, requests sid h ≤ retryMax + 1
  answered : ∀ sid, counted sid log ≤ retryMax + 1
  moderate : Moderate h

section

variable {s : TaskState} {h : List Event} {log : List Routing} {sid : String}

theorem Budget.requests_le (hb : Budget s h log) (hwf : s.Wf) (sid : String) :
    requests sid h ≤ retryMax + 1 := by
  have := hb.requested sid
  have := hwf.retries sid
  have := unit_le_one (p := sid ∈ s.published)
  omega

theorem Budget.counted_le (hb : Budget s h log) (hwf : s.Wf) (sid : String) :
    counted sid log ≤ retryMax + 1 := by
  have := hb.answered sid
  have := hwf.retries sid
  have := unit_le_one (p := sid ∈ s.results)
  omega

theorem Budget.messages_le (hb : Budget s h log) (hwf : s.Wf) : s.messagesExchanged ≤ trafficBound s.plan := by
  have hle : ∀ sid ∈ s.plan.ids, requests sid h + counted sid log ≤ 2 * (retryMax + 1) := fun sid _ => by
    have := hb.requests_le hwf sid
    have := hb.counted_le hwf sid
    omega
  have := Finset.sum_le_card_nsmul s.plan.ids _ _ hle
  rw [hb.exchanged, trafficBound]
  simpa [Nat.mul_comm] using this

/-- One more message for one subtask of the plan. -/
theorem sum_succ {S : Finset String} (hs : sid ∈ S) {f g : String → Nat}
    (hfg : ∀ k, g k = f k + unit (k = sid)) : ∑ k ∈ S, g k = (∑ k ∈ S, f k) + 1 := by
  rw [Finset.sum_congr rfl fun k _ => hfg k, Finset.sum_add_distrib]
  simp [unit, hs]

/-- The sum moves with one subtask only. -/
theorem exchanged_succ {s' : TaskState} {h' : List Event} {log' : List Routing} (hb : Budget s h log)
    (hplan : s'.plan = s.plan) (hmsg : s'.messagesExchanged = s.messagesExchanged + 1) (hs : sid ∈ s.plan.ids)
    (hk : ∀ k, requests k h' + counted k log' = requests k h + counted k log + unit (k = sid)) :
    s'.messagesExchanged = ∑ k ∈ s'.plan.ids, (requests k h' + counted k log') := by
  rw [hplan, sum_succ hs hk, hmsg, hb.exchanged]

/-- A request, paid for by the first publication or by the retry its back-off had set aside. -/
theorem Budget.published {c : Ctx} (hb : Budget c.state c.outside.history log) {sub : Subtask}
    (hs : sub.id ∈ c.state.plan.ids)
    (hpaid : requests sub.id c.outside.history + unit (sub.id ∈ c.state.retryAt) ≤ c.state.retries sub.id)
    (env : Env) (cfg : Config) (now : ℚ) :
    Budget (c.published env cfg now sub).state (c.published env cfg now sub).outside.history log where
  requested k := by
    show requests k (_ :: c.outside.history) + unit (k ∈ c.state.retryAt) ≤
      c.state.retries k + unit (k ∈ insert sub.id c.state.published)
    rw [requests_published]
    by_cases he : sub.id = k
    · subst he
      rw [unit_true rfl, unit_true (Finset.mem_insert_self _ _)]
      omega
    · have := hb.requested k
      have := unit_mono (p := k ∈ c.state.published) (q := k ∈ insert sub.id c.state.published)
        (Finset.mem_insert_of_mem ·)
      rw [unit_false he]
      omega
  answered := hb.answered
  exchanged := exchanged_succ hb rfl rfl hs fun k => by
    simp only [Ctx.published, Outside.note_history, requests_published, eq_comm (a := k)]
    omega

/-- A failure takes the back-off and leaves the subtask published. -/
theorem failed_requested (hb : ∀ k, requests k h + unit (k ∈ s.retryAt) ≤ s.retries k + unit (k ∈ s.published))
    (reason : String) (now : ℚ) (k : String) : requests k h + unit (k ∈ (s.fail sid reason now).retryAt) ≤
      (s.fail sid reason now).retries k + unit (k ∈ (s.fail sid reason now).published) := by
  have := hb k
  have h1 : unit (k ∈ (s.fail sid reason now).retryAt) ≤ unit (k ∈ s.retryAt) := unit_mono fun hk => by
    simp only [TaskState.fail, Dict.mem_erase] at hk
    exact hk.2
  have h2 : unit (k ∈ s.published) ≤ unit (k ∈ (s.fail sid reason now).published) := unit_mono fun hk => by
    simp [TaskState.fail, hk]
  have h3 : (s.fail sid reason now).retries k = s.retries k := rfl
  omega

/-- A charge pays for the back-off it starts. -/
theorem charged_requested (hb : ∀ k, requests k h + unit (k ∈ s.retryAt) ≤ s.retries k + unit (k ∈ s.published))
    (reason : String) (now : ℚ) (k : String) :
    requests k h + unit (k ∈ (s.retryOrFail sid reason now).retryAt) ≤
      (s.retryOrFail sid reason now).retries k + unit (k ∈ (s.retryOrFail sid reason now).published) := by
  rcases Nat.lt_or_ge (s.retries sid) retryMax with hlt | hge
  · have := hb k
    have hret := retries_countRetry s sid k
    rw [retryOrFail_of_lt hlt]
    show _ + unit (k ∈ s.retryAt.set sid _) ≤ (s.countRetry sid).retries k + unit (k ∈ s.published)
    rw [hret]
    by_cases hk : k = sid
    · subst hk
      have := unit_le_one (p := k ∈ s.retryAt.set k (now + backoffSeconds.getD (s.retries k) 0))
      rw [if_pos rfl]
      omega
    · have : unit (k ∈ s.retryAt.set sid (now + backoffSeconds.getD (s.retries sid) 0)) ≤ unit (k ∈ s.retryAt) :=
        unit_mono fun h => by simpa [hk] using h
      rw [if_neg hk]
      omega
  · rw [retryOrFail_of_le hge]
    exact failed_requested hb reason now k

/-- A charge uses up a retry or resolves the subtask. -/
theorem charged_answered {n : String → Nat} (hb : ∀ k, n k ≤ s.retries k + unit (k ∈ s.results))
    (hres : sid ∉ s.results) (reason : String) (now : ℚ) (k : String) :
    n k + unit (k = sid) ≤
      (s.retryOrFail sid reason now).retries k + unit (k ∈ (s.retryOrFail sid reason now).results) := by
  have := hb k
  rcases Nat.lt_or_ge (s.retries sid) retryMax with hlt | hge
  · have hret := retries_countRetry s sid k
    rw [retryOrFail_of_lt hlt]
    show _ ≤ (s.countRetry sid).retries k + unit (k ∈ s.results)
    rw [hret]
    by_cases hk : k = sid
    · subst hk
      rw [unit_true rfl, if_pos rfl]
      omega
    · rw [unit_false hk, if_neg hk]
      omega
  · rw [retryOrFail_of_le hge]
    show _ ≤ s.retries k + unit (k ∈ s.results.set sid none)
    by_cases hk : k = sid
    · subst hk
      have : unit (k ∈ s.results) = 0 := unit_false hres
      rw [unit_true rfl, unit_true (by simp)]
      omega
    · have : unit (k ∈ s.results) ≤ unit (k ∈ s.results.set sid none) := unit_mono fun h => by simp [h]
      rw [unit_false hk]
      omega

theorem Budget.failed (hb : Budget s h log) (sid reason : String) (now : ℚ) :
    Budget (s.fail sid reason now) h log where
  requested := failed_requested hb.requested reason now
  answered k := by
    have := hb.answered k
    have : unit (k ∈ s.results) ≤ unit (k ∈ (s.fail sid reason now).results) := unit_mono fun hk => by
      simp [TaskState.fail, hk]
    have hr : (s.fail sid reason now).retries k = s.retries k := rfl
    omega
  exchanged := hb.exchanged

theorem messages_retryOrFail (s : TaskState) (sid reason : String) (now : ℚ) :
    (s.retryOrFail sid reason now).messagesExchanged = s.messagesExchanged ∧
      (s.retryOrFail sid reason now).plan = s.plan := by
  unfold retryOrFail
  split <;> exact ⟨rfl, rfl⟩

/-- A deadline that passes. -/
theorem Budget.expired (hb : Budget s h log) (hres : sid ∉ s.results) (reason : String) (now : ℚ) :
    Budget ((s.dropDeadline sid).retryOrFail sid reason now) h log where
  requested := charged_requested (s := s.dropDeadline sid) hb.requested reason now
  answered k := by
    have := charged_answered (s := s.dropDeadline sid) hb.answered hres reason now k
    omega
  exchanged := by
    obtain ⟨hm, hp⟩ := messages_retryOrFail (s.dropDeadline sid) sid reason now
    rw [hm, hp]
    exact hb.exchanged

theorem counts_iff {m : Message} {t : TaskState} (jobs : List Job) (hsid : m.subtaskId = some sid)
    (hm : t.messagesExchanged = s.messagesExchanged + 1) (k : String) :
    unit ((Routing.mk m s jobs t).counts k = true) = unit (k = sid) := by
  simp [unit, Routing.counts, hsid, hm, eq_comm]

/-- A routed reply. -/
theorem Budget.routed (hb : Budget s h log) (hwf : s.Wf) {env : Env} {now : ℚ} {m : Message} {jobs : List Job}
    {s' : TaskState} (hr : Routed env now m s jobs s') :
    Budget s' (.routed m :: h) (log ++ [⟨m, s, jobs, s'⟩]) := by
  have hq : ∀ k, requests k (.routed m :: h) = requests k h := fun k => requests_quiet (by simp)
  cases hr with
  | ignored hi =>
    have hc : ∀ k, unit ((Routing.mk m s [] s).counts k = true) = 0 := fun k => by simp [unit, Routing.counts]
    refine ⟨fun k => by rw [hq]; exact hb.requested k, fun k => ?_, ?_⟩
    · rw [counted_append, hc]; exact hb.answered k
    · simp only [hq, counted_append, hc]; exact hb.exchanged
  | @refused sid hsid hp href =>
    let t := s.countMessage.dropDeadline sid
    obtain ⟨hm, hplan⟩ := messages_retryOrFail t sid (refuseReason env m) now
    have hc := counts_iff [] hsid (show _ = s.messagesExchanged + 1 from hm)
    refine ⟨fun k => ?_, fun k => ?_, ?_⟩
    · rw [hq]
      exact charged_requested (s := t) hb.requested _ now k
    · rw [counted_append, hc]
      exact charged_answered (s := t) hb.answered (hwf.disjoint sid hp) _ now k
    · refine exchanged_succ hb hplan hm (by rw [hwf.plan_eq]; exact hwf.mem_ids hp) fun k => ?_
      rw [hq, counted_append, hc]
      omega
  | @informed sid sub hsid hp hperf hg =>
    let t := (s.countMessage.dropDeadline sid).inform sid m.content now
    have hc := counts_iff [⟨s.task.id, sub.operation, m.content⟩] hsid
      (show t.messagesExchanged = s.messagesExchanged + 1 from rfl)
    refine ⟨fun k => ?_, fun k => ?_, ?_⟩
    · have := hb.requested k
      have : unit (k ∈ t.retryAt) ≤ unit (k ∈ s.retryAt) := unit_mono fun hk => by
        simp only [t, inform, dropDeadline, countMessage, Dict.mem_erase] at hk
        exact hk.2
      rw [hq]
      show requests k h + unit (k ∈ t.retryAt) ≤ s.retries k + unit (k ∈ s.published)
      omega
    · have := hb.answered k
      rw [counted_append, hc]
      show _ ≤ s.retries k + unit (k ∈ s.results.set sid (some m.content))
      by_cases hk : k = sid
      · subst hk
        have : unit (k ∈ s.results) = 0 := unit_false (hwf.disjoint k hp)
        rw [unit_true rfl, unit_true (by simp)]
        omega
      · have : unit (k ∈ s.results) ≤ unit (k ∈ s.results.set sid (some m.content)) :=
          unit_mono fun h => by simp [h]
        rw [unit_false hk]
        omega
    · refine exchanged_succ hb rfl rfl (by rw [hwf.plan_eq]; exact hwf.mem_ids hp) fun k => ?_
      rw [hq, counted_append, hc]
      omega

theorem Budget.move {c : Ctx} {o : Outside} {env : Env} {cfg : Config} {now : ℚ}
    (hb : Budget s o.history log) (hwf : s.Wf) (hm : Move env cfg now ⟨s, o⟩ c) :
    Budget c.state c.outside.history log := by
  cases hm with
  | @ready sub hs hpub hpend _ _ =>
    refine Budget.published (c := ⟨s, o⟩) hb (by rw [hwf.plan_eq]; exact hwf.mem_ids hpend) ?_ env cfg now
    have := hb.requested sub.id
    rw [unit_false hpub] at this
    exact this
  | skip => exact hb.failed _ _ _
  | @expire sid d hd _ => exact hb.expired (hwf.disjoint sid (hwf.timers sid (.inl (Dict.mem_of_get? hd)))) _ _
  | @again sid due sub hr hle hs =>
    obtain ⟨hsub, rfl⟩ := Plan.mem_of_get? hs
    have hmem := Dict.mem_of_get? hr
    have hdrop : ∀ k, unit (k ∈ s.retryAt.erase sub.id) ≤ unit (k ∈ s.retryAt) := fun k => unit_mono fun hk => by
      simp only [Dict.mem_erase] at hk
      exact hk.2
    have hb' : Budget (s.dropRetry sub.id) o.history log :=
      ⟨fun k => Nat.le_trans (Nat.add_le_add_left (hdrop k) _) (hb.requested k), hb.answered, hb.exchanged⟩
    refine Budget.published (c := ⟨s.dropRetry sub.id, o⟩) hb' (Plan.mem_ids.mpr ⟨sub, hsub, rfl⟩) ?_ env cfg now
    -- the retry set aside for the back-off pays for the request
    have := hb.requested sub.id
    have : unit (sub.id ∈ s.published) ≤ 1 := unit_le_one
    have : unit (sub.id ∈ s.retryAt.erase sub.id) = 0 := unit_false (by simp)
    rw [unit_true hmem] at *
    show requests sub.id o.history + unit (sub.id ∈ s.retryAt.erase sub.id) ≤ s.retries sub.id
    omega

end

/-! ## Runs -/

theorem logInv_budget (A : Assumptions) (env : Env) (cfg : Config) :
    LogInv A env cfg (fun s h log => s.Wf ∧ Budget s h log ∧ Moderate h) Bounded where
  submitted task now _ := ⟨(exact_submitted task now).toWf,
    ⟨fun _ => by simp [TaskState.submitted], fun _ => by simp, by simp [TaskState.submitted]⟩, by simp [Moderate]⟩
  resumed task results now _ := ⟨(exact_resumed task results now).toWf,
    ⟨fun _ => by simp [TaskState.resumed], fun _ => by simp, by simp [TaskState.resumed]⟩, by simp [Moderate]⟩
  move := by
    intro now s o c log hJ hwf hm _
    refine ⟨Wf.move (c := ⟨s, o⟩) hwf hm, hJ.2.1.move hwf hm, ?_⟩
    cases hm with
    | ready => exact hJ.2.2.cons (by simp)
    | skip => exact hJ.2.2
    | expire => exact hJ.2.2
    | again => exact hJ.2.2.cons (by simp)
  routed hJ hwf _ _ hr := ⟨Wf.routed hwf hr, hJ.2.1.routed hwf hr, hJ.2.2.cons (by simp)⟩
  finalizing := by
    intro now s h log cause hJ hwf _
    have hq : ∀ k, requests k (.finalizing cause (determineFinalStatus s.plan s.results) s :: h) = requests k h :=
      fun k => requests_quiet (by simp)
    refine ⟨hwf, ⟨fun k => by rw [hq]; exact hJ.2.1.requested k, hJ.2.1.answered, ?_⟩, ?_⟩
    · simp only [hq]; exact hJ.2.1.exchanged
    · intro cause' status' s' hf
      rcases List.mem_cons.mp hf with he | hf
      · cases he; exact hJ.2.1.messages_le hwf
      · exact hJ.2.2 cause' status' s' hf
  recorded := by
    intro s h e log hJ hq
    have hr : ∀ k, requests k (e :: h) = requests k h := fun k =>
      requests_quiet (by rintro _ _ _ _ _ rfl; cases hq)
    refine ⟨hJ.1, ⟨fun k => by rw [hr]; exact hJ.2.1.requested k, hJ.2.1.answered, ?_⟩,
      hJ.2.2.cons (by rintro _ _ _ rfl; cases hq)⟩
    simp only [hr]; exact hJ.2.1.exchanged
  history hJ := ⟨hJ.2.1.requests_le hJ.1, hJ.2.1.counted_le hJ.1, hJ.2.2⟩
  empty := ⟨fun _ => by simp, fun _ => by simp, by simp [Moderate]⟩
  quiet hk hq := ⟨fun k => by
      rw [requests_quiet (by rintro _ _ _ _ _ rfl; cases hq)]; exact hk.requested k,
    hk.answered, hk.moderate.cons (by rintro _ _ _ rfl; cases hq)⟩

/-- **Bounded traffic.** -/
theorem traffic_bounded (env : Env) (cfg : Config) {p : Audited} (hr : (audited .any env cfg).Reachable p)
    (tid : String) :
    (∀ sid, requests sid (p.coordinator.outside tid).history ≤ retryMax + 1) ∧
    (∀ sid, counted sid (ofTask tid p.log) ≤ retryMax + 1) ∧
    (∀ s, p.coordinator.tasks.get? tid = some s →
      s.messagesExchanged ≤ 2 * (retryMax + 1) * s.plan.ids.card) ∧
    ∀ cause status s, Event.finalizing cause status s ∈ (p.coordinator.outside tid).history →
      s.messagesExchanged ≤ 2 * (retryMax + 1) * s.plan.ids.card := by
  have hslots := (logInv_budget .any env cfg).onAudited.reachable p hr
  obtain ⟨hreq, hans, hfin⟩ := (hslots.2 tid).told
  refine ⟨hreq, hans, fun s hs => ?_, hfin⟩
  obtain ⟨hwf, hb, -⟩ := (hslots.2 tid).state s hs
  exact hb.messages_le hwf

theorem traffic_bounded_course :
    requests "st-t1-F1" (taught.coordinator.outside "t1").history = 1 ∧
      ∃ s, taught.coordinator.tasks.get? "t1" = some s ∧
        s.messagesExchanged ≤ 2 * (retryMax + 1) * s.plan.ids.card := by
  obtain ⟨s, hs⟩ := Option.isSome_iff_exists.mp
    (show (taught.coordinator.tasks.get? "t1").isSome = true by decide +kernel)
  exact ⟨by decide +kernel, s, hs, (traffic_bounded Env.faultless {} reachable_taught "t1").2.2.1 s hs⟩

end MasResearch.L3
