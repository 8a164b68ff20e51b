import MasResearch.L3Runs.Slots

/-!
# The log of routed replies

The inbox is the coordinator's only input once a task runs. `routeLog` lists, for the
replies of one tick that reach a registered task, the state each of them found, the
persist jobs it queued and the state it left. The log is ghost: it is read off
`routeTo` and nothing of the model depends on it.

* `routing_routeTo`: an entry is a `Routed` step of its task.
* `routeLog_slot`: the jobs of the log are the `persist_jobs` of the tick, and the
  entries of a task are what `slotLog` makes of its own replies.
-/
namespace MasResearch.L3

open MasResearch.L1 MasResearch.L2 Relation

/-- A routed reply of a registered task. -/
structure Routing where
  reply : Message
  before : TaskState
  jobs : List Job
  after : TaskState

/-- The entry of one reply: its task was in state `st` and `out` is what routing gave. -/
def routing (reply : Message) (st : Option TaskState) (out : Except PyError (List Job) × Slot) : List Routing :=
  match st, out with
  | some s, (.ok jobs, ⟨some s', _, _⟩) => [⟨reply, s, jobs, s'⟩]
  | _, _ => []

/-- The log of a task's own replies. -/
def slotLog (env : Env) (now : ℚ) : List Message → Slot → List Routing
  | [], _ => []
  | reply :: replies, l =>
    routing reply l.state ((routeTo env reply now).run l) ++
      slotLog env now replies ((routeTo env reply now).run l).2

/-- The log of `for reply in replies: ...`. -/
def routeLog (env : Env) (now : ℚ) : List Message → Coordinator → List Routing
  | [], _ => []
  | reply :: replies, c =>
    routing reply (c.tasks.get? reply.taskId) ((routeTo env reply now).run (c.slot reply.taskId)) ++
      routeLog env now replies ((forTask reply.taskId (routeTo env reply now)).run c).2

/-- The entries of one task. -/
def ofTask (tid : String) (log : List Routing) : List Routing := log.filter fun r => r.reply.taskId = tid

@[simp] theorem ofTask_nil (tid : String) : ofTask tid [] = [] := rfl

@[simp] theorem ofTask_append (tid : String) (log new : List Routing) :
    ofTask tid (log ++ new) = ofTask tid log ++ ofTask tid new := List.filter_append _ _

theorem ofTask_cons_self {tid : String} {r : Routing} (h : r.reply.taskId = tid) (log : List Routing) :
    ofTask tid (r :: log) = r :: ofTask tid log := List.filter_cons_of_pos (by simpa using h)

theorem ofTask_cons_ne {tid : String} {r : Routing} (h : r.reply.taskId ≠ tid) (log : List Routing) :
    ofTask tid (r :: log) = ofTask tid log := List.filter_cons_of_neg (by simpa using h)

theorem mem_ofTask {tid : String} {log : List Routing} {r : Routing} :
    r ∈ ofTask tid log ↔ r ∈ log ∧ r.reply.taskId = tid := by
  simp [ofTask]

/-- The persist jobs the entries queued, in order. -/
def queued (log : List Routing) : List Job := log.flatMap Routing.jobs

@[simp] theorem queued_nil : queued [] = [] := rfl

@[simp] theorem queued_cons (r : Routing) (log : List Routing) : queued (r :: log) = r.jobs ++ queued log := rfl

@[simp] theorem queued_append (log new : List Routing) : queued (log ++ new) = queued log ++ queued new :=
  List.flatMap_append

section

variable (env : Env) (now : ℚ)

/-- What `run_routeTo` says, with the entry. -/
theorem routing_routeTo {tid : String} {l : Slot} (h : KeyedState tid l.state) (reply : Message) :
    ∃ jobs l', (routeTo env reply now).run l = (.ok jobs, l') ∧ l'.inflight = l.inflight ∧
      KeyedState tid l'.state ∧ (∀ job ∈ jobs, job.taskId = tid) ∧
      queued (routing reply l.state (.ok jobs, l')) = jobs ∧
      ((l.state = none ∧ l' = l ∧ routing reply l.state (.ok jobs, l') = []) ∨
        ∃ s s', l.state = some s ∧ l'.state = some s' ∧ l'.outside = l.outside.note (.routed reply) ∧
          Routed env now reply s jobs s' ∧ routing reply l.state (.ok jobs, l') = [⟨reply, s, jobs, s'⟩]) := by
  obtain ⟨jobs, l', h1, hg, hk, hj, hc⟩ := run_routeTo env now h reply
  refine ⟨jobs, l', h1, hg, hk, hj, ?_⟩
  obtain ⟨st', o', g'⟩ := l'
  rcases hc with ⟨hn, rfl⟩ | ⟨s, s', hs, hs', ho, hr⟩
  · obtain rfl : st' = none := hn
    obtain rfl : jobs = [] := by
      have : (routeTo env reply now).run ⟨none, o', g'⟩ = (.ok [], ⟨none, o', g'⟩) := rfl
      rw [this] at h1; cases h1; rfl
    exact ⟨rfl, .inl ⟨rfl, rfl, rfl⟩⟩
  · obtain rfl : st' = some s' := hs'
    rw [hs]
    exact ⟨List.append_nil _, .inr ⟨s, s', rfl, rfl, ho, hr, rfl⟩⟩

/-- **The log, task by task.** -/
theorem routeLog_slot : ∀ (replies : List Message) (c : Coordinator), Keyed c →
    ((routeAll env now replies).run c).1 = .ok (queued (routeLog env now replies c)) ∧
      ∀ tid, ofTask tid (routeLog env now replies c) =
        slotLog env now (replies.filter fun r => r.taskId = tid) (c.slot tid)
  | [], _, _ => ⟨rfl, fun _ => rfl⟩
  | reply :: replies, c, h => by
    obtain ⟨jobs, l, h1, hg, hk, -, hq, hc⟩ :=
      routing_routeTo env now (l := c.slot reply.taskId) (h reply.taskId) reply
    obtain ⟨hjobs, ih⟩ := routeLog_slot replies (c.putSlot reply.taskId l) (keyed_putSlot h hk)
    obtain ⟨more, c', h2, -⟩ := routeAll_slot env now replies (c.putSlot reply.taskId l) (keyed_putSlot h hk)
    have hlog : routeLog env now (reply :: replies) c =
        routing reply (c.slot reply.taskId).state (.ok jobs, l) ++
          routeLog env now replies (c.putSlot reply.taskId l) := by
      rw [routeLog, run_forTask h1, h1]; rfl
    rw [hlog, queued_append, hq]
    constructor
    · rw [h2] at hjobs
      simp only [routeAll, Exec.run_bind, run_forTask h1, h2, Exec.run_pure]
      cases hjobs; rfl
    intro tid
    rw [ofTask_append, ih tid]
    by_cases ht : tid = reply.taskId
    · subst ht
      have hl : (c.putSlot reply.taskId l).slot reply.taskId = l := by
        rw [slot_putSlot_self, ← (show l.inflight = 0 from hg)]
      have hself : ofTask reply.taskId (routing reply (c.slot reply.taskId).state (.ok jobs, l)) =
          routing reply (c.slot reply.taskId).state (.ok jobs, l) := by
        rcases hc with ⟨-, -, he⟩ | ⟨s, s', -, -, -, -, he⟩ <;> rw [he] <;> simp [ofTask]
      rw [hl, hself]
      simp only [List.filter_cons, decide_true, if_true, slotLog, h1]
    · have hne : ofTask tid (routing reply (c.slot reply.taskId).state (.ok jobs, l)) = [] := by
        rcases hc with ⟨-, -, he⟩ | ⟨s, s', -, -, -, -, he⟩ <;> rw [he] <;> simp [ofTask, Ne.symm ht]
      rw [hne, slot_putSlot_ne ht]
      simp only [List.filter_cons, decide_eq_true_eq, if_neg (Ne.symm ht), List.nil_append]

end

end MasResearch.L3
