import MasResearch.L2Store.ResultRows
import MasResearch.L3Runs.Traffic

/-!
# What recovery reloads

A task comes back as the contents read from its rows. Two things are expected of them:
that a subtask with a content is not requested again, and that the payload made of the
contents is the one made of the results before the restart.

* `requests_resume`: `_resume` requests no subtask that has a loaded result, whichever
  calls raise.
* `reloaded_payload`: the row mapping gives back what the agents informed, and so the
  payload of a plan.
-/
namespace MasResearch.L3

open MasResearch.L1 MasResearch.L2 Relation TaskState

/-! ## Requests -/

/-- The subtask has a result, and was requested `n` times. -/
def ResultHeld (sid : String) (n : Nat) (v : View) : Prop :=
  (∀ s, v.1 = some s → s.Wf ∧ sid ∈ s.results) ∧ requests sid v.2.history = n

section

variable {env : Env} {cfg : Config} {now : ℚ} {sid : String} {n : Nat}

theorem requests_recorded {o o' : Outside} (h : Recorded o o') : requests sid o'.history = requests sid o.history := by
  obtain ⟨e, he, hh⟩ := h
  rw [hh, requests_quiet]
  rintro channel sub results request t rfl
  cases he

theorem resultHeld_step {v v' : View} (hv : ResultHeld sid n v) (h : SlotStep env cfg now v v') :
    ResultHeld sid n v' := by
  cases h with
  | @move s o c hm =>
    obtain ⟨hwf, hres⟩ := hv.1 s rfl
    have hkeep := (extends_move hwf hm).mem hres
    refine ⟨fun s' hs => by cases hs; exact ⟨Wf.move hwf hm, hkeep⟩, ?_⟩
    -- what is requested is pending, so it is another subtask
    cases hm with
    | @ready sub _ _ hpend =>
      have hne : sub.id ≠ sid := fun he => hwf.disjoint _ hpend (he ▸ hres)
      rw [Ctx.published, Outside.note_history, requests_published, unit_false hne, Nat.add_zero]
      exact hv.2
    | skip => exact hv.2
    | expire => exact hv.2
    | @again k _ sub hr _ hs =>
      have hpend : k ∈ s.pending := hwf.timers _ (.inr (Dict.mem_of_get? hr))
      have hne : sub.id ≠ sid := fun he => hwf.disjoint _ hpend ((Plan.mem_of_get? hs).2 ▸ he ▸ hres)
      rw [Ctx.published, Outside.note_history, requests_published, unit_false hne, Nat.add_zero]
      exact hv.2
  | finalizing =>
    refine ⟨hv.1, ?_⟩
    rw [Outside.note_history, requests_quiet fun _ _ _ _ _ => by simp]
    exact hv.2
  | recorded hq => exact ⟨hv.1, (requests_recorded hq).trans hv.2⟩
  | closed => exact ⟨fun s hs => (by cases hs), hv.2⟩

/-- **A reloaded subtask is not requested again** when its task is resumed. -/
theorem requests_resume (env : Env) (cfg : Config) {task : Task} {results : Dict String Content} (now : ℚ)
    (hplan : sid ∈ (buildPlan task).ids) (hres : sid ∈ results) (o : Outside) (g : Int) :
    requests sid ((resume env cfg task results now).run ⟨none, o, g⟩).2.outside.history =
      requests sid o.history := by
  have hwf := (exact_resumed task results now).toWf
  have hloaded : sid ∈ (TaskState.resumed task results now).results := by
    simp [TaskState.resumed, mem_loadedResults, hplan, hres]
  have hrun : (resume env cfg task results now).run ⟨none, o, g⟩ =
      (enrol env cfg .recovery (TaskState.resumed task results now) now).run ⟨none, o.note .recovered, g⟩ := rfl
  have hquiet : ∀ {h : List Event} {e : Event}, e.quiet = true → requests sid (e :: h) = requests sid h := by
    intro h e he
    refine requests_quiet fun channel sub results request t hp => ?_
    rw [hp] at he; cases he
  obtain ⟨r, l', h1, -, hc⟩ :=
    enrol_spec env cfg hwf (nothingDue_resumed task results now) .recovery (o.note .recovered) g
  rw [hrun, h1]
  rcases hc with ⟨-, hs⟩ | ⟨-, -, hq⟩
  · have hstart : ResultHeld sid (requests sid o.history)
        (some (TaskState.resumed task results now), (o.note .recovered).note (.registered .recovery)) := by
      refine ⟨fun s hs => by cases hs; exact ⟨hwf, hloaded⟩, ?_⟩
      rw [Outside.note_history, hquiet rfl, Outside.note_history, hquiet rfl]
    exact (Exec.stable_star (fun _ _ hv h => resultHeld_step hv h) hs hstart).2
  · have hstar := Exec.stable_star (P := fun o' : Outside => requests sid o'.history = requests sid o.history)
      (fun _ _ hv h => (requests_recorded h).trans hv) hq
    refine hstar ?_
    rw [Outside.note_history, requests_quiet fun _ _ _ _ _ => by simp, Outside.note_history, hquiet rfl]

end

/-! ## Payloads -/

/-- **Reloading loses nothing.** Every content the agents inform comes back from its rows,
and so the payload of a plan is the same over the reloaded results. -/
theorem reloaded_payload (env : Env) (v : Validators) (doc : Operation → String) :
    (∀ taskId op content, Emits doc taskId op content →
      reread env taskId op content = .ok (storedContent op content)) ∧
    ∀ task live reloaded, Emitted doc (buildPlan task) live → Reloads env (buildPlan task) live reloaded →
      assemblePayload v (buildPlan task) reloaded = assemblePayload v (buildPlan task) live :=
  ⟨fun taskId _ _ h => reread_emits env taskId h, fun _ _ _ hl hr => assemblePayload_reloads v hl hr⟩

/-- A task whose recommender found nothing to cite. -/
def seminar : Task where
  id := "t1"
  requestedOutputs := [.f3Summarize, .f5Terms, .f6Recommend]
  conversationId := "conv-t1"

def keyword : Term where
  term := "graph"
  «lemma» := "graph"
  frequency := 2
  category := "concept"
  sourceChunkId := some "chunk-d1-0"

def informedSummary : Content := summarizerContent "t1" "intro" "thesis" "end" ["chunk-d1-0"]

/-- The results before the restart. -/
def informed : Results :=
  (((∅ : Results).set (subtaskIdFor "t1" .f3Summarize) (some informedSummary)).set
    (subtaskIdFor "t1" .f5Terms) (some (terminologyContent [keyword]))).set
    (subtaskIdFor "t1" .f6Recommend) (some (recommenderContent []))

/-- After it: no citation, no entry. -/
def reloaded : Results :=
  ((∅ : Results).set (subtaskIdFor "t1" .f3Summarize) (some informedSummary)).set
    (subtaskIdFor "t1" .f5Terms) (some (terminologyContent [keyword]))

/-- Models that take everything. -/
def lenient : Validators :=
  ⟨fun _ => some ⟨"sum-t1", [], []⟩, fun _ => some keyword, fun _ => none, fun _ => none⟩

theorem subtaskIdFor_seminar (a b : Operation) : subtaskIdFor "t1" a = subtaskIdFor "t1" b ↔ a = b :=
  ⟨subtaskIdFor_inj, congrArg _⟩

theorem mem_seminar {sub : Subtask} (h : sub ∈ (buildPlan seminar).subtasks) :
    ∃ op ∈ [Operation.f3Summarize, .f5Terms, .f6Recommend], sub.id = subtaskIdFor "t1" op ∧ sub.operation = op := by
  obtain ⟨op, helig, rfl⟩ := mem_buildPlan.mp h
  exact ⟨op, helig, rfl, rfl⟩

theorem reloaded_payload_seminar :
    assemblePayload lenient (buildPlan seminar) reloaded = assemblePayload lenient (buildPlan seminar) informed := by
  have hsummary : informed.content? (subtaskIdFor "t1" .f3Summarize) = some informedSummary := by
    simp [content?_eq, informed, subtaskIdFor_seminar]
  have hterms : informed.content? (subtaskIdFor "t1" .f5Terms) = some (terminologyContent [keyword]) := by
    simp [content?_eq, informed, subtaskIdFor_seminar]
  have hcitations : informed.content? (subtaskIdFor "t1" .f6Recommend) = some (recommenderContent []) := by
    simp [content?_eq, informed]
  have hemits3 : Emits (fun _ => "") "t1" .f3Summarize informedSummary := .f3 _ _ _ _
  have hemits5 : Emits (fun _ => "") "t1" .f5Terms (terminologyContent [keyword]) := .f5 (by simp [keyword])
  refine (reloaded_payload Env.faultless lenient fun _ => "").2 seminar informed reloaded ?_ ?_
  · intro sub hs content hc
    obtain ⟨op, hm, hid, hop⟩ := mem_seminar hs
    rw [hid] at hc
    rw [hop]
    simp only [List.mem_cons, List.not_mem_nil, or_false] at hm
    rcases hm with rfl | rfl | rfl
    · rw [hsummary] at hc; cases hc; exact hemits3
    · rw [hterms] at hc; cases hc; exact hemits5
    · rw [hcitations] at hc; cases hc; exact .f6 []
  · intro sub hs
    obtain ⟨op, hm, hid, hop⟩ := mem_seminar hs
    rw [hid, hop]
    simp only [List.mem_cons, List.not_mem_nil, or_false] at hm
    rcases hm with rfl | rfl | rfl
    · rw [hsummary, show reloaded.content? _ = some informedSummary by
        simp [content?_eq, reloaded, subtaskIdFor_seminar]]
      exact .entry (reread_emits Env.faultless "t1" hemits3)
    · rw [hterms, show reloaded.content? _ = some (terminologyContent [keyword]) by
        simp [content?_eq, reloaded]]
      exact .entry (reread_emits Env.faultless "t1" hemits5)
    · rw [hcitations, show reloaded.content? _ = none by simp [content?_eq, reloaded, subtaskIdFor_seminar]]
      exact .rowless rfl

end MasResearch.L3
