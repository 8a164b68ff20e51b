import MasResearch.L3Runs.Runs

/-!
# Playing a run of one task

A script lists what each tick reads, one reply or none, and when. Whether assumptions admit
it is a computation: `Tests` say what to test of the state and the history that a reply finds.

* `Tests.Sound.admits`: the ticks of a script that passes are admitted.
* `Tests.Sound.admits_submit`, `Tests.Sound.admits_resume`: so is the start of the task before.
-/
namespace MasResearch.L3

open MasResearch.L1 MasResearch.L2 TaskState

abbrev Script := List (Option Message × ℚ)

/-- A tick that reads one reply, or finds the inbox empty. -/
def reading (reply : Option Message) (now : ℚ) : Action :=
  .tick (.entries (reply.toList.map fun m => { entryId := "1-0", payload := some m })) now

def Script.actions (script : Script) : List Action := script.map fun p => reading p.1 p.2

/-- The script after the start of a task. -/
def played (env : Env) (cfg : Config) (start : Action) (script : Script) : Coordinator :=
  (start :: script.actions).foldl (next env cfg) Coordinator.idle

/-! ## Tests -/

structure Tests where
  reply : TaskState → List Event → Message → Bool
  timely : ℚ → List Event → Bool

namespace Tests

/-- What passes is assumed. -/
structure Sound (T : Tests) (A : Assumptions) : Prop where
  reply : ∀ s h m, T.reply s h m = true → A.reply s h m
  timely : ∀ now h, T.timely now h = true → A.timely now h
  idle : ∀ now, A.timely now []

/-- Each tick passes when it is taken, and its reply is for the task. -/
def passes (T : Tests) (env : Env) (cfg : Config) (tid : String) : Coordinator → Script → Bool
  | _, [] => true
  | c, (reply, now) :: script =>
    reply.all (fun m => m.taskId = tid ∧ (c.tasks.get? tid).all fun s => T.reply s (c.outside tid).history m) &&
      (T.timely now ((next env cfg c (reading reply now)).outside tid).history &&
        T.passes env cfg tid (next env cfg c (reading reply now)) script)

/-- The start and the script pass. -/
def plays (T : Tests) (env : Env) (cfg : Config) (tid : String) (start : Action) (script : Script) : Bool :=
  T.timely start.now ((next env cfg Coordinator.idle start).outside tid).history &&
    T.passes env cfg tid (next env cfg Coordinator.idle start) script

section

variable {T : Tests} {A : Assumptions} {env : Env} {cfg : Config} {c : Coordinator} {tid : String}

theorem Sound.timely_others (hT : T.Sound A) (hfresh : ∀ t, t ≠ tid → Fresh c t) {now : ℚ}
    (h : T.timely now (c.outside tid).history = true) (t : String) : A.timely now (c.outside t).history := by
  by_cases ht : t = tid
  · rw [ht]; exact hT.timely _ _ h
  · rw [(hfresh t ht).2]; exact hT.idle now

/-- A tick leaves the tasks fresh that are. -/
theorem fresh_tick (hk : Keyed c) (hfresh : ∀ t, t ≠ tid → Fresh c t) (batch : Batch) (now : ℚ) (t : String)
    (ht : t ≠ tid) : Fresh (next env cfg c (.tick batch now)) t := by
  have hslot := slot_tick_of_none env cfg hk batch now (hfresh t ht).1
  exact ⟨(tasks_of_slot hslot).trans (hfresh t ht).1, by rw [outside_of_slot hslot]; exact (hfresh t ht).2⟩

theorem Sound.admits (hT : T.Sound A) : ∀ {script : Script} {c : Coordinator}, Keyed c → (∀ t, t ≠ tid → Fresh c t) →
    T.passes env cfg tid c script = true → LTS.Admits (Admissible A env cfg) (next env cfg) c script.actions
  | [], _, _, _, _ => trivial
  | (reply, now) :: script, c, hk, hfresh, h => by
    simp only [passes, Bool.and_eq_true] at h
    obtain ⟨hreply, htimely, hrest⟩ := h
    have hfresh' : ∀ t, t ≠ tid → Fresh (next env cfg c (reading reply now)) t := fresh_tick hk hfresh _ now
    have hadm : Admissible A env cfg c (reading reply now) := by
      refine ⟨?_, hT.timely_others hfresh' htimely⟩
      cases reply with
      | none => exact allows_quiet A env c now
      | some m =>
        simp only [Option.all_some, decide_eq_true_eq] at hreply
        obtain ⟨rfl, hall⟩ := hreply
        refine allows_reply "1-0" (fun s hs => hT.reply _ _ _ ?_) now
        rwa [hs, Option.all_some] at hall
    exact ⟨hadm, hT.admits (keyed_next hk hadm) hfresh' hrest⟩

theorem fresh_start {start : Action} {l : Slot} (h : next env cfg Coordinator.idle start =
    Coordinator.idle.putSlot tid l) (t : String) (ht : t ≠ tid) : Fresh (next env cfg Coordinator.idle start) t := by
  have hslot : (next env cfg Coordinator.idle start).slot t = Coordinator.idle.slot t := by
    rw [h, slot_putSlot_ne ht]
  exact ⟨(tasks_of_slot hslot).trans (initial_idle t).1, by rw [outside_of_slot hslot]; rfl⟩

theorem Sound.admits_start (hT : T.Sound A) {start : Action} {script : Script}
    (ha : A.allows env Coordinator.idle start) (hfresh : ∀ t, t ≠ tid → Fresh (next env cfg Coordinator.idle start) t)
    (h : T.plays env cfg tid start script = true) :
    LTS.Admits (Admissible A env cfg) (next env cfg) Coordinator.idle (start :: script.actions) := by
  simp only [plays, Bool.and_eq_true] at h
  have hadm : Admissible A env cfg Coordinator.idle start := ⟨ha, hT.timely_others hfresh h.1⟩
  have hidle : Keyed Coordinator.idle := fun t => by rw [(initial_idle t).1]; exact keyed_none t
  exact ⟨hadm, hT.admits (keyed_next hidle hadm) hfresh h.2⟩

/-- A task that was submitted, and what came after. -/
theorem Sound.admits_submit (hT : T.Sound A) {task : Task} {now : ℚ} (hs : A.submits task) {script : Script}
    (h : T.plays env cfg task.id (.submit task now) script = true) :
    LTS.Admits (Admissible A env cfg) (next env cfg) Coordinator.idle (.submit task now :: script.actions) :=
  hT.admits_start ⟨hs, initial_idle _⟩ (fresh_start (next_submit env cfg (initial_idle _) now)) h

theorem Sound.admits_resume (hT : T.Sound A) {task : Task} {results : Dict String Content} {now : ℚ}
    (hs : A.resumes task results) {script : Script}
    (h : T.plays env cfg task.id (.resume task results now) script = true) :
    LTS.Admits (Admissible A env cfg) (next env cfg) Coordinator.idle (.resume task results now :: script.actions) :=
  hT.admits_start ⟨hs, initial_idle _⟩ (fresh_start (next_resume env cfg (initial_idle _) results now)) h

end

end Tests

/-! ## Replies to own requests -/

/-- The event is a request of the task for the subtask. -/
def asks (tid sid : String) : Event → Bool
  | .published _ _ _ request _ => request.taskId = tid ∧ request.subtaskId = some sid
  | _ => false

theorem exists_asked {h : List Event} {tid sid : String} (ha : h.any (asks tid sid) = true) :
    ∃ channel sub results request t, Event.published channel sub results request t ∈ h ∧
      request.taskId = tid ∧ request.subtaskId = some sid := by
  obtain ⟨e, he, hask⟩ := List.any_eq_true.mp ha
  cases e with
  | published channel sub results request t =>
    simp only [asks, decide_eq_true_eq] at hask
    exact ⟨channel, sub, results, request, t, he, hask⟩
  | _ => cases hask

/-- The subtask of the reply was asked for. -/
def wasAsked (h : List Event) (m : Message) : Bool := m.subtaskId.any fun sid => h.any (asks m.taskId sid)

theorem answers_of_asked {h : List Event} {m : Message} (ha : wasAsked h m = true) : Answers h m := by
  obtain ⟨sid, hsid, ha⟩ := (Option.any_eq_true _ _).mp ha
  obtain ⟨channel, sub, results, request, t, hm, htid, hreq⟩ := exists_asked ha
  exact ⟨channel, sub, results, request, t, hm, htid.symm, by rw [hreq]; exact hsid⟩

/-- Where it is enough that a reply answers a request. -/
def ownTests : Tests := ⟨fun _ => wasAsked, fun _ _ => true⟩

theorem sound_ownTests {A : Assumptions} (hreply : ∀ s h m, Answers h m → A.reply s h m)
    (htimely : ∀ now h, A.timely now h) : ownTests.Sound A where
  reply s h m ha := hreply s h m (answers_of_asked ha)
  timely now h _ := htimely now h
  idle now := htimely now []

end MasResearch.L3
