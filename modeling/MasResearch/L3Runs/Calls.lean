import MasResearch.L3Runs.Audit
import MasResearch.L3Runs.Gauge

/-!
# Sequences of calls

`submit`, `_resume` and `_tick` called in any order, each call in an environment of its
own: which external calls raise in one call says nothing about the next. The task ids
that are started are pairwise distinct.

`gauge_follows`: after each call the gauge has moved from its starting value by the
number of registered tasks, and a task that left `_tasks` never re-enters it.
-/
namespace MasResearch.L3

open MasResearch.L1 MasResearch.L2 Relation TaskState

/-- One call: what raises in it, and the call. -/
abbrev CallIn := Env × Action

def perform (cfg : Config) (c : Coordinator) (call : CallIn) : Coordinator := next call.1 cfg c call.2

/-- The ids of the tasks the calls start. -/
def startedBy (calls : List CallIn) : List String := calls.filterMap fun call => call.2.starts

@[simp] theorem startedBy_append (as bs : List CallIn) : startedBy (as ++ bs) = startedBy as ++ startedBy bs :=
  List.filterMap_append

theorem startedBy_cons (call : CallIn) (calls : List CallIn) :
    startedBy (call :: calls) = call.2.starts.toList ++ startedBy calls := by
  rw [startedBy, List.filterMap_cons]
  cases call.2.starts <;> rfl

theorem allows_of_fresh (env : Env) {c : Coordinator} {a : Action} (h : ∀ tid, a.starts = some tid → Fresh c tid) :
    Assumptions.any.allows env c a := by
  cases a with
  | submit task now => exact ⟨trivial, h task.id rfl⟩
  | resume task results now => exact ⟨trivial, h task.id rfl⟩
  | tick batch now => exact fun _ _ _ => routable_any env now _ _

/-- The gauge follows, and the tasks that are still to be started are fresh. -/
structure Ready (base : Int) (todo : List String) (c : Coordinator) : Prop where
  gauged : Gauged base c
  fresh : ∀ tid ∈ todo, Fresh c tid

section

variable {cfg : Config} {base : Int} {todo : List String} {c : Coordinator}

theorem Ready.call {call : CallIn} (h : Ready base (call.2.starts.toList ++ todo) c)
    (hd : (call.2.starts.toList ++ todo).Nodup) : Ready base todo (perform cfg c call) := by
  obtain ⟨env, a⟩ := call
  have ha : Assumptions.any.allows env c a := allows_of_fresh env fun tid hs =>
    h.fresh tid (List.mem_append_left _ (Option.mem_toList.mpr hs))
  refine ⟨gauged_next h.gauged ha, fun tid ht => ?_⟩
  obtain ⟨hn, hh⟩ := h.fresh tid (List.mem_append_right _ ht)
  have hst : a.starts ≠ some tid := fun hs =>
    (List.nodup_append.mp hd).2.2 tid (Option.mem_toList.mpr hs) tid ht rfl
  have hslot : (next env cfg c a).slot tid = c.slot tid := slot_next_of_none h.gauged.keyed ha hn hst
  exact ⟨(tasks_of_slot hslot).trans hn, by rw [perform, outside_of_slot hslot]; exact hh⟩

theorem Ready.calls : ∀ {calls : List CallIn} {c : Coordinator}, Ready base (startedBy calls ++ todo) c →
    (startedBy calls ++ todo).Nodup → Ready base todo (calls.foldl (perform cfg) c)
  | [], _, h, _ => h
  | call :: calls, c, h, hd => by
    rw [startedBy_cons, List.append_assoc] at h hd
    exact (h.call hd).calls (List.nodup_append.mp hd).2.1

/-- A task that is not registered, and is not started, stays out. -/
theorem unregistered_calls {tid : String} : ∀ {calls : List CallIn} {c : Coordinator},
    Ready base (startedBy calls) c → (startedBy calls).Nodup → tid ∉ startedBy calls →
    c.tasks.get? tid = none → (calls.foldl (perform cfg) c).tasks.get? tid = none
  | [], _, _, _, _, hn => hn
  | call :: calls, c, h, hd, ht, hn => by
    rw [startedBy_cons] at h hd ht
    rw [List.mem_append, not_or] at ht
    have ha : Assumptions.any.allows call.1 c call.2 := allows_of_fresh call.1 fun k hs =>
      h.fresh k (List.mem_append_left _ (Option.mem_toList.mpr hs))
    have hslot : (perform cfg c call).slot tid = c.slot tid := slot_next_of_none h.gauged.keyed ha hn fun hs =>
      ht.1 (Option.mem_toList.mpr hs)
    show (calls.foldl (perform cfg) (perform cfg c call)).tasks.get? tid = none
    exact unregistered_calls (h.call hd) (List.nodup_append.mp hd).2.1 ht.2 ((tasks_of_slot hslot).trans hn)

end

theorem ready_initial {c : Coordinator} (h : Initial c) (todo : List String) : Ready c.inflight todo c :=
  ⟨gauged_initial h, fun tid _ => h tid⟩

/-- **The gauge follows `_tasks`, and no task comes back.** -/
theorem gauge_follows (cfg : Config) {c : Coordinator} (h : Initial c) (calls : List CallIn)
    (hd : (startedBy calls).Nodup) :
    (calls.foldl (perform cfg) c).inflight = c.inflight + (calls.foldl (perform cfg) c).tasks.size ∧
    ∀ as bs cs, calls = as ++ bs ++ cs → ∀ tid,
      (as.foldl (perform cfg) c).tasks.get? tid ≠ none →
      ((as ++ bs).foldl (perform cfg) c).tasks.get? tid = none →
      (calls.foldl (perform cfg) c).tasks.get? tid = none := by
  refine ⟨?_, ?_⟩
  · have hready : Ready c.inflight [] (calls.foldl (perform cfg) c) :=
      (ready_initial h (startedBy calls ++ [])).calls (by simpa using hd)
    exact hready.gauged.inflight
  · rintro as bs cs rfl tid hin hout
    simp only [startedBy_append] at hd
    obtain ⟨hab, hcs, hdisj⟩ := List.nodup_append.mp hd
    -- the task was registered, so one of the first calls had started it
    have hstarted : tid ∈ startedBy as := by
      by_contra hnot
      have hready : Ready c.inflight [tid] (as.foldl (perform cfg) c) := (ready_initial h (startedBy as ++ [tid])).calls
        (List.nodup_append.mpr ⟨(List.nodup_append.mp hab).1, List.nodup_singleton _, fun a ha b hb => by
          obtain rfl := List.mem_singleton.mp hb
          rintro rfl; exact hnot ha⟩)
      exact hin (hready.fresh tid List.mem_cons_self).1
    have hready : Ready c.inflight (startedBy cs) ((as ++ bs).foldl (perform cfg) c) :=
      (ready_initial h (startedBy (as ++ bs) ++ startedBy cs)).calls (by simpa using hd)
    rw [List.foldl_append]
    exact unregistered_calls hready hcs
      (fun hm => hdisj tid (List.mem_append_left _ hstarted) tid hm rfl) hout

/-- The lecture is transcribed, in an environment in which its artifact cannot be saved,
while the course goes on. -/
def lectureCalls : List CallIn :=
  [(Env.faultless, .submit lecture 0), (Env.faultless, .resume { course with id := "t2" } ∅ 0),
    ({ Env.faultless with raises := fun _ call => call = .saveArtifact },
      .tick (.entries [{ entryId := "1-0", payload := some transcript }]) 1)]

theorem gauge_follows_lecture :
    (lectureCalls.foldl (perform {}) Coordinator.idle).tasks.get? "t1" = none ∧
      (lectureCalls.foldl (perform {}) Coordinator.idle).inflight = 1 := by
  refine ⟨(gauge_follows {} initial_idle lectureCalls (by decide)).2 (lectureCalls.take 2) (lectureCalls.drop 2) []
    rfl "t1" (by decide +kernel) (by decide +kernel), ?_⟩
  rw [(gauge_follows {} initial_idle lectureCalls (by decide)).1]
  decide +kernel

end MasResearch.L3
