import MasResearch.L1Domain.Payloads

/-!
# The dispatch state of one task (`TaskState`)

`TaskState` mirrors the coordinator's dataclass field by field. Below it are the
updates its methods make to it, each a pure function with the statements of the
source in order, and `Wf`, the invariant every registered state satisfies
whatever the inbox holds:

* `cover`, `disjoint`: `pending` and the keys of `results` split the plan's ids;
* `timers`: only pending subtasks have a deadline or a `retry_at`;
* `armed`: a pending subtask that was published has one;
* `retries`: no count exceeds `RETRY_MAX`, so `BACKOFF_SECONDS` is indexed in range.

`Exact` adds what replies to this coordinator's own requests keep besides: an
unpublished subtask has no timer, a published one has exactly one.
-/
namespace MasResearch.L2

open MasResearch.L1

/-- mirrors src/core/retry.py:12 -/
def backoffSeconds : List ℚ := [1, 4]

/-- mirrors src/core/retry.py:13 -/
def retryMax : Nat := backoffSeconds.length

/-- mirrors src/core/retry.py:15-22 -/
def agentTimeoutsSec : AgentName → ℚ
  | .transcriber => 600
  | .ocr => 120
  | .summarizer => 90
  | .testGenerator => 60
  | .terminology => 30
  | .recommender => 15

/-- mirrors src/agents/coordinator.py:59-77 -/
structure TaskState where
  task : Task
  plan : Plan
  pending : Finset String
  startedAt : ℚ
  published : Finset String := ∅
  results : Results := ∅
  retryCounts : Dict String Nat := ∅
  deadlines : Dict String ℚ := ∅
  retryAt : Dict String ℚ := ∅
  firstAttemptAt : Dict String ℚ := ∅
  resolvedAt : Dict String ℚ := ∅
  failReason : Dict String String := ∅
  messagesExchanged : Nat := 0

namespace TaskState

/-- `retry_counts.get(subtask_id, 0)`. -/
def retries (s : TaskState) (sid : String) : Nat := s.retryCounts.getD sid 0

/-- The state `submit` registers.
mirrors src/agents/coordinator.py:130-135 -/
def submitted (task : Task) (now : ℚ) : TaskState where
  task := task
  plan := buildPlan task
  pending := (buildPlan task).ids
  startedAt := now

/-- `{sid: content for sid, content in results.items() if sid in valid_ids}`.
mirrors src/agents/coordinator.py:157-158 -/
def loadedResults (task : Task) (results : Dict String Content) : Dict String Content :=
  results.filterKeys fun sid => sid ∈ (buildPlan task).ids

/-- The state `_resume` registers.
mirrors src/agents/coordinator.py:156-168 -/
def resumed (task : Task) (results : Dict String Content) (now : ℚ) : TaskState :=
  let loaded := loadedResults task results
  { task := task
    plan := buildPlan task
    pending := (buildPlan task).ids.filter fun sid => sid ∉ loaded
    startedAt := now
    published := loaded.keys.toFinset
    results := loaded.mapVals some
    resolvedAt := loaded.mapVals fun _ => now }

/-- mirrors src/agents/coordinator.py:227 -/
def countMessage (s : TaskState) : TaskState := { s with messagesExchanged := s.messagesExchanged + 1 }

/-- `deadlines.pop(subtask_id, None)`. -/
def dropDeadline (s : TaskState) (sid : String) : TaskState := { s with deadlines := s.deadlines.erase sid }

/-- `del retry_at[subtask_id]`. -/
def dropRetry (s : TaskState) (sid : String) : TaskState := { s with retryAt := s.retryAt.erase sid }

/-- mirrors src/agents/coordinator.py:233-236 -/
def inform (s : TaskState) (sid : String) (content : Content) (now : ℚ) : TaskState :=
  { s with
    results := s.results.set sid (some content)
    resolvedAt := s.resolvedAt.set sid now
    retryAt := s.retryAt.erase sid
    pending := s.pending.erase sid }

/-- mirrors src/agents/coordinator.py:311-317 -/
def fail (s : TaskState) (sid reason : String) (now : ℚ) : TaskState :=
  { s with
    results := s.results.set sid none
    failReason := s.failReason.set sid reason
    resolvedAt := s.resolvedAt.set sid now
    deadlines := s.deadlines.erase sid
    retryAt := s.retryAt.erase sid
    published := insert sid s.published
    pending := s.pending.erase sid }

/-- mirrors src/agents/coordinator.py:305 -/
def countRetry (s : TaskState) (sid : String) : TaskState :=
  { s with retryCounts := s.retryCounts.set sid (s.retries sid + 1) }

/-- mirrors src/agents/coordinator.py:306-307 -/
def scheduleRetry (s : TaskState) (sid reason : String) (at_ : ℚ) : TaskState :=
  { s with
    retryAt := s.retryAt.set sid at_
    failReason := s.failReason.set sid reason }

/-- mirrors src/agents/coordinator.py:332-335; `setdefault` keeps the first attempt's time -/
def markPublished (s : TaskState) (sid : String) (now timeout : ℚ) : TaskState :=
  { s with
    published := insert sid s.published
    messagesExchanged := s.messagesExchanged + 1
    deadlines := s.deadlines.set sid (now + timeout)
    firstAttemptAt := if sid ∈ s.firstAttemptAt then s.firstAttemptAt else s.firstAttemptAt.set sid now }

/-- What `_schedule_retry_or_fail` leaves behind: a back-off, or a failure when
the retries are exhausted.
mirrors src/agents/coordinator.py:301-307 -/
def retryOrFail (s : TaskState) (sid reason : String) (now : ℚ) : TaskState :=
  if retryMax ≤ s.retries sid then s.fail sid reason now
  else (s.countRetry sid).scheduleRetry sid reason (now + backoffSeconds.getD (s.retries sid) 0)

/-! ## The invariant of every registered state -/

structure Wf (s : TaskState) : Prop where
  plan_eq : s.plan = buildPlan s.task
  cover : ∀ sid, sid ∈ (buildPlan s.task).ids ↔ sid ∈ s.pending ∨ sid ∈ s.results
  disjoint : ∀ sid ∈ s.pending, sid ∉ s.results
  timers : ∀ sid, sid ∈ s.deadlines ∨ sid ∈ s.retryAt → sid ∈ s.pending
  armed : ∀ sid ∈ s.pending, sid ∈ s.published → sid ∈ s.deadlines ∨ sid ∈ s.retryAt
  retries : ∀ sid, s.retries sid ≤ retryMax

/-- What `Wf` leaves open: timers of unpublished subtasks, and two timers at once. -/
structure Exact (s : TaskState) : Prop extends Wf s where
  idle : ∀ sid ∈ s.pending, sid ∉ s.published → sid ∉ s.deadlines ∧ sid ∉ s.retryAt
  single : ∀ sid, sid ∈ s.deadlines → sid ∉ s.retryAt

theorem Wf.mem_ids {s : TaskState} (h : Wf s) {sid : String} (hp : sid ∈ s.pending) :
    sid ∈ (buildPlan s.task).ids := (h.cover sid).mpr (.inl hp)

/-- `plan.get` finds every pending subtask. -/
theorem Wf.get? {s : TaskState} (h : Wf s) {sid : String} (hp : sid ∈ s.pending) :
    ∃ sub ∈ s.plan.subtasks, sub.id = sid ∧ s.plan.get? sid = some sub := by
  rw [h.plan_eq]; exact get?_of_mem_ids (h.mem_ids hp)

theorem exact_submitted (task : Task) (now : ℚ) : Exact (submitted task now) where
  plan_eq := rfl
  cover sid := by simp [submitted]
  disjoint := by simp [submitted]
  timers := by simp [submitted]
  armed := by simp [submitted]
  retries sid := by simp [submitted, TaskState.retries, Dict.getD_eq]
  idle := by simp [submitted]
  single := by simp [submitted]

theorem mem_loadedResults {task : Task} {results : Dict String Content} {sid : String} :
    sid ∈ loadedResults task results ↔ sid ∈ (buildPlan task).ids ∧ sid ∈ results := by
  simp [loadedResults]

theorem exact_resumed (task : Task) (results : Dict String Content) (now : ℚ) :
    Exact (resumed task results now) where
  plan_eq := rfl
  cover sid := by
    by_cases h : sid ∈ results <;> simp [resumed, mem_loadedResults, h]
  disjoint := by simp [resumed]
  timers := by simp [resumed]
  armed := by
    intro sid hp hpub
    simp only [resumed, Finset.mem_filter, List.mem_toFinset] at hp hpub
    exact absurd hpub hp.2
  retries sid := by simp [resumed, TaskState.retries, Dict.getD_eq]
  idle := by simp [resumed]
  single := by simp [resumed]

/-! ## Each update keeps the invariants -/

theorem retries_countRetry (s : TaskState) (sid k : String) :
    (s.countRetry sid).retries k = if k = sid then s.retries sid + 1 else s.retries k := by
  simp only [countRetry, retries, Dict.getD_eq, Dict.get?_set]
  split <;> simp

section Keep

variable {s : TaskState} {sid : String}

/-- From `s` to `s'` a subtask is resolved: it leaves `pending`, gets an entry and loses
its timers. -/
structure Resolves (s : TaskState) (sid : String) (s' : TaskState) : Prop where
  task : s'.task = s.task
  plan : s'.plan = s.plan
  pending : ∀ k, k ∈ s'.pending ↔ k ≠ sid ∧ k ∈ s.pending
  results : ∀ k, k ∈ s'.results ↔ k = sid ∨ k ∈ s.results
  published : ∀ k, k ≠ sid → (k ∈ s'.published ↔ k ∈ s.published)
  deadlines : ∀ k, k ∈ s'.deadlines ↔ k ≠ sid ∧ k ∈ s.deadlines
  retryAt : ∀ k, k ∈ s'.retryAt ↔ k ≠ sid ∧ k ∈ s.retryAt
  retries : ∀ k, s'.retries k = s.retries k

theorem resolves_fail (s : TaskState) (sid reason : String) (now : ℚ) : Resolves s sid (s.fail sid reason now) where
  task := rfl
  plan := rfl
  pending _ := Finset.mem_erase
  results _ := Dict.mem_set
  published k hk := by simp [TaskState.fail, hk]
  deadlines _ := Dict.mem_erase
  retryAt _ := Dict.mem_erase
  retries _ := rfl

/-- With its deadline dropped before, a subtask is failed the same. -/
theorem Resolves.of_dropDeadline {s' : TaskState} (h : Resolves (s.dropDeadline sid) sid s') : Resolves s sid s' :=
  { h with
    deadlines := fun k => by rw [h.deadlines, dropDeadline, Dict.mem_erase, and_self_left] }

/-- `_route_reply` on an inform: the reply's own timer goes with the rest. -/
theorem resolves_informed (s : TaskState) (sid : String) (content : Content) (now : ℚ) :
    Resolves s sid ((s.countMessage.dropDeadline sid).inform sid content now) where
  task := rfl
  plan := rfl
  pending _ := Finset.mem_erase
  results _ := Dict.mem_set
  published _ _ := Iff.rfl
  deadlines _ := Dict.mem_erase
  retryAt _ := Dict.mem_erase
  retries _ := rfl

theorem Wf.resolve {s' : TaskState} (h : Wf s) (hp : sid ∈ s.pending) (hr : Resolves s sid s') : Wf s' where
  plan_eq := by rw [hr.plan, hr.task, h.plan_eq]
  cover k := by
    rw [hr.task, h.cover, hr.pending, hr.results]
    by_cases hk : k = sid
    · simp [hk, hp]
    · simp [hk]
  disjoint k hk := by
    obtain ⟨hne, hk⟩ := (hr.pending k).mp hk
    rw [hr.results]
    exact not_or.mpr ⟨hne, h.disjoint k hk⟩
  timers k hk := by
    rw [hr.deadlines, hr.retryAt, ← and_or_left] at hk
    exact (hr.pending k).mpr ⟨hk.1, h.timers k hk.2⟩
  armed k hk hpub := by
    obtain ⟨hne, hk⟩ := (hr.pending k).mp hk
    rw [hr.deadlines, hr.retryAt, ← and_or_left]
    exact ⟨hne, h.armed k hk ((hr.published k hne).mp hpub)⟩
  retries k := by rw [hr.retries]; exact h.retries k

theorem Exact.resolve {s' : TaskState} (h : Exact s) (hp : sid ∈ s.pending) (hr : Resolves s sid s') : Exact s' where
  toWf := h.toWf.resolve hp hr
  idle k hk hpub := by
    obtain ⟨hne, hk⟩ := (hr.pending k).mp hk
    obtain ⟨hd, hb⟩ := h.idle k hk fun hp => hpub ((hr.published k hne).mpr hp)
    rw [hr.deadlines, hr.retryAt]
    exact ⟨fun hc => hd hc.2, fun hc => hb hc.2⟩
  single k hk := by
    rw [hr.deadlines] at hk
    rw [hr.retryAt]
    exact fun hc => h.single k hk.2 hc.2

theorem Wf.fail (h : Wf s) (hp : sid ∈ s.pending) (reason : String) (now : ℚ) : Wf (s.fail sid reason now) :=
  h.resolve hp (resolves_fail s sid reason now)

theorem Exact.fail (h : Exact s) (hp : sid ∈ s.pending) (reason : String) (now : ℚ) :
    Exact (s.fail sid reason now) :=
  h.resolve hp (resolves_fail s sid reason now)

theorem Wf.informed (h : Wf s) (hp : sid ∈ s.pending) (content : Content) (now : ℚ) :
    Wf ((s.countMessage.dropDeadline sid).inform sid content now) :=
  h.resolve hp (resolves_informed s sid content now)

theorem Exact.informed (h : Exact s) (hp : sid ∈ s.pending) (content : Content) (now : ℚ) :
    Exact ((s.countMessage.dropDeadline sid).inform sid content now) :=
  h.resolve hp (resolves_informed s sid content now)

/-- A request, first attempt or (after `del retry_at[subtask_id]`) a later one. -/
theorem Wf.markPublished (h : Wf s) (hp : sid ∈ s.pending) (now timeout : ℚ) :
    Wf (s.markPublished sid now timeout) where
  plan_eq := h.plan_eq
  cover k := h.cover k
  disjoint k hk := h.disjoint k hk
  timers k hk := by have := h.timers k; grind [TaskState.markPublished]
  armed k hk hpub := by have := h.armed k; grind [TaskState.markPublished]
  retries k := h.retries k

theorem Wf.republished (h : Wf s) (hp : sid ∈ s.pending) (now timeout : ℚ) :
    Wf ((s.dropRetry sid).markPublished sid now timeout) where
  plan_eq := h.plan_eq
  cover k := h.cover k
  disjoint k hk := h.disjoint k hk
  timers k hk := by have := h.timers k; grind [TaskState.markPublished, TaskState.dropRetry]
  armed k hk hpub := by have := h.armed k; grind [TaskState.markPublished, TaskState.dropRetry]
  retries k := h.retries k

theorem Exact.markPublished (h : Exact s) (hp : sid ∈ s.pending) (hpub : sid ∉ s.published)
    (now timeout : ℚ) : Exact (s.markPublished sid now timeout) where
  toWf := h.toWf.markPublished hp now timeout
  idle k hk hpub := by have := h.idle k; grind [TaskState.markPublished]
  single k hk := by
    have := h.single k; have := h.idle sid; grind [TaskState.markPublished]

theorem Exact.republished (h : Exact s) (hp : sid ∈ s.pending) (now timeout : ℚ) :
    Exact ((s.dropRetry sid).markPublished sid now timeout) where
  toWf := h.toWf.republished hp now timeout
  idle k hk hpub := by have := h.idle k; grind [TaskState.markPublished, TaskState.dropRetry]
  single k hk := by have := h.single k; grind [TaskState.markPublished, TaskState.dropRetry]

theorem retryOrFail_of_lt (h : s.retries sid < retryMax) (reason : String) (now : ℚ) :
    s.retryOrFail sid reason now =
      (s.countRetry sid).scheduleRetry sid reason (now + backoffSeconds.getD (s.retries sid) 0) := by
  rw [retryOrFail, if_neg (Nat.not_le.mpr h)]

theorem retryOrFail_of_le (h : retryMax ≤ s.retries sid) (reason : String) (now : ℚ) :
    s.retryOrFail sid reason now = s.fail sid reason now := by
  rw [retryOrFail, if_pos h]

/-- A refusal or a timeout: the deadline goes, a back-off or a failure comes. -/
theorem Wf.retried (h : Wf s) (hp : sid ∈ s.pending) (reason : String) (now : ℚ) :
    Wf ((s.dropDeadline sid).retryOrFail sid reason now) := by
  rcases Nat.lt_or_ge (s.retries sid) retryMax with hlt | hge
  · rw [retryOrFail_of_lt (s := s.dropDeadline sid) hlt]
    constructor
    case plan_eq => exact h.plan_eq
    case cover => exact h.cover
    case disjoint => exact h.disjoint
    case timers =>
      intro k hk
      have := h.timers k; grind [TaskState.scheduleRetry, TaskState.countRetry, TaskState.dropDeadline]
    case armed =>
      intro k hk hpub
      have := h.armed k; grind [TaskState.scheduleRetry, TaskState.countRetry, TaskState.dropDeadline]
    case retries =>
      intro k
      have := h.retries k
      have e := retries_countRetry (s.dropDeadline sid) sid k
      have e' : (s.dropDeadline sid).retries sid = s.retries sid := rfl
      have e'' : (s.dropDeadline sid).retries k = s.retries k := rfl
      show ((s.dropDeadline sid).countRetry sid).retries k ≤ retryMax
      rw [e]; split <;> omega
  · rw [retryOrFail_of_le (s := s.dropDeadline sid) hge]
    exact h.resolve hp (resolves_fail _ sid reason now).of_dropDeadline

theorem Exact.retried (h : Exact s) (hp : sid ∈ s.pending) (hpub : sid ∈ s.published) (reason : String)
    (now : ℚ) : Exact ((s.dropDeadline sid).retryOrFail sid reason now) := by
  have hw := h.toWf.retried hp reason now
  rcases Nat.lt_or_ge (s.retries sid) retryMax with hlt | hge
  · rw [retryOrFail_of_lt (s := s.dropDeadline sid) hlt] at hw ⊢
    refine { hw with idle := fun k hk hnot => ?_, single := fun k hk => ?_ }
    · -- another subtask, since this one is published
      have hne : k ≠ sid := fun he => hnot (he ▸ hpub)
      obtain ⟨hd, hb⟩ := h.idle k hk hnot
      simp [scheduleRetry, countRetry, dropDeadline, hne, hd, hb]
    · simp only [scheduleRetry, countRetry, dropDeadline, Dict.mem_erase] at hk
      simp [scheduleRetry, countRetry, dropDeadline, hk.1, h.single k hk.2]
  · rw [retryOrFail_of_le (s := s.dropDeadline sid) hge]
    exact h.resolve hp (resolves_fail _ sid reason now).of_dropDeadline

theorem Wf.countMessage (h : Wf s) : Wf s.countMessage := ⟨h.1, h.2, h.3, h.4, h.5, h.6⟩

theorem Exact.countMessage (h : Exact s) : Exact s.countMessage :=
  ⟨h.toWf.countMessage, h.idle, h.single⟩

end Keep

end TaskState

end MasResearch.L2
