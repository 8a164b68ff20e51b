import MasResearch.L2Agents.Grounds
import MasResearch.L2Store.FormedRows
import MasResearch.L3Runs.Audit
import MasResearch.L3Runs.Provenance
import MasResearch.L3Runs.Saves

/-!
# The system with its agents and its tables

A `Deployment` is the system of `L3Runs.System` with the tables of the results. The agents are
those of `Workers`; a tick commits some of its persist jobs, in any order and any number of times,
since a save may raise before or after its commit and is repeated then; what a resumed task starts
with is what recovery loads from the tables at that moment.

Nothing is assumed of the documents of a task, which a restart may list in another order.

* `emits_informed`: what an agent informs for a request of the coordinator the row mapping knows.
* `jobs_emitted`: so is what a tick saves.
* `deployed_inductive`: the tables stay typed, and the system is one of `L3Runs.System`.
* `deployed_saves`: the tables are those of a run of `L3Runs.Saves`.
* `artifacts_assemble`: over any number of crashes recovery reads every task back, and no
  artifact fails to be assembled.
-/
namespace MasResearch.L3

open MasResearch.L1 MasResearch.L2 Relation TaskState

/-! ## What the agents inform for requests of the coordinator -/

section

variable {κ σ ε : Type} [LinearOrder κ] {w : Workers κ σ} {task : Task} {results : Results} {op : Operation}
  {request : Message} {content : Content}

/-- **An agent informs what the row mapping knows**, for the document of the task that its
operation ingests, and of the quality that it promises. -/
theorem emits_informed (h : w.Informed ε (operationToAgent op) request content) (hop : op ∈ eligibleOperations task)
    (hid : request.taskId = task.id)
    (hpay : request.content = buildPayload (subtaskFor task.id (eligibleOperations task) op) task results) :
    Emits (documentOf task) task.id op content ∧ Formed w.quality op content := by
  have hdoc := fun hin : ingests op = true => document_id_request hin hop results
  rw [← hpay] at hdoc
  rw [← hid]
  cases op with
  | f1Transcribe =>
    cases h with
    | transcriber agent h =>
      obtain ⟨filePath, documentId, language, chunks, hget, hchunks, rfl⟩ := agent.informed h
      obtain rfl : documentOf task .f1Transcribe = documentId := by simpa [hget, eq_comm] using hdoc rfl
      exact ⟨.f1 language (agent.transcriber.audio hchunks), _, rfl⟩
  | f2Ocr =>
    cases h with
    | ocr agent s h =>
      obtain ⟨filePath, documentId, documentType, chunks, hget, hchunks, rfl⟩ := agent.informed h
      obtain rfl : documentOf task .f2Ocr = documentId := by simpa [hget, eq_comm] using hdoc rfl
      refine ⟨.f2 fun c hc => ?_, _, rfl⟩
      rw [agent.ocr.extracted hchunks c hc, extractedType]
      split
      · exact .inl rfl
      · exact .inr rfl
  | f3Summarize =>
    cases h with
    | summarizer llm log h =>
      obtain ⟨new, -, hok, -⟩ :=
        Summarizer.logs_replied w.deps llm w.summarizer request.taskId request.content log
      cases hok _ h with
      | informed =>
        refine ⟨.f3 _ _ _ _, _, ?_, rfl⟩
        rfl
  | f4Test =>
    cases h with
    | testGenerator llm log h =>
      obtain ⟨questions, rfl, -, hall⟩ := QuizAgent.grounded h
      exact ⟨.f4 _ _, questions, fun q hq => (hall q hq).1, rfl⟩
  | f5Terms =>
    cases h with
    | terminology extractMany h =>
      have hpos : 0 < termsTopN w.topNDefault request.content := by rw [hpay]; exact (by decide : (0 : Int) < 10)
      obtain ⟨terms, rfl, hterms⟩ := TerminologyAgent.informed hpos h
      exact ⟨.f5 hterms.bare, terms, fun t ht => ⟨hterms.filtered t ht, hterms.counted t ht, hterms.categorized t ht⟩,
        rfl⟩
  | f6Recommend =>
    cases h with
    | recommender encode h =>
      have hr := Recommender.replied_handle (w.recommender encode) request.content
      rw [h] at hr
      cases hr with
      | cited _ _ _ _ hcites =>
        refine ⟨.f6 _, _, fun c hc => ?_, rfl⟩
        obtain ⟨entry, he, rfl⟩ := hcites.cited c hc
        exact ⟨entry, List.mem_of_mem_filter he, _, rfl⟩

end

/-! ## What a tick routes and saves -/

/-- What is known of a routed reply. -/
structure Routing.Known (A : Assumptions) (env : Env) (starts : Task → Prop) (r : Routing) : Prop where
  started : starts r.before.task
  wf : r.before.Wf
  reply : ∃ h, A.reply r.before h r.reply
  routed : ∃ now, Routed env now r.reply r.before r.jobs r.after

section

variable {A : Assumptions} {env : Env} {cfg : Config} {starts : Task → Prop}

theorem logInv_known (hA : A.Within starts) (env : Env) (cfg : Config) :
    LogInv A env cfg (fun s _ log => starts s.task ∧ ∀ r ∈ log, Routing.Known A env starts r)
      fun _ log => ∀ r ∈ log, Routing.Known A env starts r where
  submitted task now hs := ⟨hA.submits task hs, List.forall_mem_nil _⟩
  resumed task results now hs := ⟨hA.resumes task results hs, List.forall_mem_nil _⟩
  move h _ hm _ := ⟨by rw [hm.frame.1]; exact h.1, h.2⟩
  routed := by
    rintro now s h m jobs s' log hI hwf - hm hr
    refine ⟨by rw [hr.frame.1]; exact hI.1, fun r hin => ?_⟩
    rcases List.mem_append.mp hin with hin | hin
    · exact hI.2 r hin
    · rw [List.mem_singleton.mp hin]
      exact ⟨hI.1, hwf, ⟨h, hm⟩, ⟨now, hr⟩⟩
  finalizing _ h _ _ := h
  recorded h _ := h
  history h := h.2
  empty := List.forall_mem_nil _
  quiet h _ := h

/-- Every reply a transition routes is known. -/
theorem known_log (hA : A.Within starts) {c : Coordinator} (hr : (runs A env cfg).Reachable c) {a : Action}
    (ha : Admissible A env cfg c a) : ∀ r ∈ a.log env c, r.Known A env starts := by
  have hI := logInv_known hA env cfg
  have hstart : LogInv.OnSlots (fun s _ log => starts s.task ∧ ∀ r ∈ log, Routing.Known A env starts r)
      (fun _ log => ∀ r ∈ log, Routing.Known A env starts r) c [] := by
    refine ⟨keyed_of_reachable hr, fun tid => ⟨fun s hs => ⟨?_, List.forall_mem_nil _⟩, List.forall_mem_nil _,
      fun _ => rfl⟩⟩
    exact ((taskInv_started hA env cfg).registered hr hs).1
  intro r hin
  exact ((hI.onSlots_next hstart ha).2 r.reply.taskId).told r (mem_ofTask.mpr ⟨hin, rfl⟩)

end

section

variable {informs : Informs} {inputs : Inputs} {env : Env} {cfg : Config}

/-- A job of a transition saves what the agent informed for a request about the subtask. -/
theorem job_informed {s : System} (hs : Correlated informs inputs env cfg s) {a : Action}
    (he : s.Enabled informs inputs env (.coordinator a)) {job : Job} (hj : job ∈ a.jobs env s.coordinator) :
    ∃ task request results, inputs.starts task ∧ task.id = job.taskId ∧ job.operation ∈ eligibleOperations task ∧
      request.taskId = task.id ∧
      request.content = buildPayload (subtaskFor task.id (eligibleOperations task) job.operation) task results ∧
      informs (operationToAgent job.operation) request job.content := by
  have hk := keyed_of_reachable hs.reachable
  rw [jobs_eq_queued env hk] at hj
  obtain ⟨r, hr, hj⟩ := List.mem_flatMap.mp hj
  obtain ⟨-, hwf, ⟨h, who, request, hfor, htid, hrep⟩, now, hrouted⟩ :=
    known_log (within_correlated informs inputs) hs.reachable ⟨hs.allows he, fun _ => trivial⟩ r hr
  generalize r.jobs = jobs at hj hrouted
  generalize r.after = after at hrouted
  cases hrouted with
  | ignored => cases hj
  | refused => cases hj
  | @informed sid sub hsid hp hperf hg =>
    obtain rfl := List.mem_singleton.mp hj
    obtain ⟨hin, rfl⟩ := Plan.mem_of_get? hg
    rw [hwf.plan_eq] at hin
    obtain ⟨rfl, task, results, hstart, hid, hop, hpay⟩ := hfor.of_mem htid hin (hrep.ids.2.symm.trans hsid)
    obtain ⟨op, -, rfl⟩ := mem_buildPlan.mp hin
    exact ⟨task, request, results, hstart, hid, hop, htid.trans hid.symm, hpay, hrep.informed hperf⟩

end

/-! ## The deployment -/

structure Deployment where
  system : System
  store : ResultStore := {}

/-- A transition of the system, and the jobs whose save it commits. -/
structure Round where
  label : Label
  commits : List Job := []

namespace Deployment

/-- What recovery loads from the tables. -/
def recovers (starts : Task → Prop) (env : Env) (st : ResultStore) : Inputs where
  starts := starts
  loads task sid content := ∃ results, st.loadResults env task.id = .ok results ∧ results.get? sid = some content

/-- One save; an error rolls it back. -/
def commit (env : Env) (st : ResultStore) (job : Job) : ResultStore :=
  match st.saveResult env job.taskId job.operation job.content with
  | .ok saved => saved
  | .error _ => st

/-- The persist jobs of a transition. -/
def jobs (env : Env) (d : Deployment) : Label → List Job
  | .coordinator a => a.jobs env d.system.coordinator
  | .agent .. | .restart _ | .crash => []

def Enabled (informs : Informs) (starts : Task → Prop) (env : Env) (d : Deployment) (r : Round) : Prop :=
  d.system.Enabled informs (recovers starts env d.store) env r.label ∧ r.commits ⊆ d.jobs env r.label

def next (env : Env) (cfg : Config) (d : Deployment) (r : Round) : Deployment where
  system := d.system.next env cfg r.label
  store := r.commits.foldl (commit env) d.store

def Start (d : Deployment) : Prop := d.system.Start ∧ d.store = {}

end Deployment

def deployment (informs : Informs) (starts : Task → Prop) (env : Env) (cfg : Config) : LTS Deployment Round :=
  LTS.guarded Deployment.Start (Deployment.Enabled informs starts env) (Deployment.next env cfg)

/-- Recovery loads formed contents. -/
def formedInputs (k : Quality) (starts : Task → Prop) : Inputs where
  starts := starts
  loads task sid content := ∃ op, sid = subtaskIdFor task.id op ∧ Formed k op content

/-! ## The lecture -/

/-- Calls never raise, and what was dumped is read back. -/
def Env.validating : Env := { Env.faultless with validators := .ofDumps }

theorem reachable_lectureAsked {starts : Task → Prop} (hs : starts lecture) :
    (deployment (Workers.crew.Informed Unit) starts Env.validating {}).Reachable ⟨lectureAsked Env.validating, {}⟩ :=
  LTS.Reachable.step (l := ⟨.coordinator (.submit lecture 0), []⟩) ⟨⟨System.idle, {}⟩, [], ⟨start_idle, rfl⟩, .nil _⟩
    ⟨⟨System.ready_submit _ hs, List.nil_subset _⟩, rfl⟩

/-! ## A workshop: everything is made of its transcript -/

/-- Everything that a tick hands over is saved. -/
def Deployment.after (env : Env) (cfg : Config) (d : Deployment) (l : Label) : Deployment :=
  d.next env cfg ⟨l, d.jobs env l⟩

theorem Deployment.reachable_foldl {informs : Informs} {starts : Task → Prop} {env : Env} {cfg : Config} {task : Task}
    (hs : starts task) : ∀ {ls : List Label} {d : Deployment}, (deployment informs starts env cfg).Reachable d →
      LTS.Admits (System.Ready informs env task) (System.next env cfg) d.system ls →
        (deployment informs starts env cfg).Reachable (ls.foldl (Deployment.after env cfg) d) ∧
          (ls.foldl (Deployment.after env cfg) d).system = ls.foldl (System.next env cfg) d.system
  | [], _, hr, _ => ⟨hr, rfl⟩
  | l :: _, d, hr, h => by
    have hnext : (deployment informs starts env cfg).Reachable (Deployment.after env cfg d l) :=
      hr.step ⟨⟨h.1 _ hs, List.Subset.refl _⟩, rfl⟩
    have ih := Deployment.reachable_foldl hs hnext h.2
    exact ih

namespace Workshop

def asked : System := System.idle.next Env.validating {} (.coordinator (.submit workshop 0))

def transcription : Content := (informedIn (TranscriberAgent.handle (⟨fakeTranscriberAdapter⟩ : TranscriberAgent Unit)
  (asked.request "t1" .transcriber).taskId (asked.request "t1" .transcriber).content)).getD []

def transcribed : System := asked.next Env.validating {} (asked.answering "t1" .transcriber transcription)

/-- The summarizer and the terminology agent have their requests. -/
def read : System := transcribed.next Env.validating {} (transcribed.hearing [.transcriber] 1)

def summaryModel : Llm Unit := fun _ _ =>
  .ok "\x7b\"introduction\": \"graphs\", \"key_points\": \"trees\", \"conclusions\": \"paths\"\x7d".toList

def summary : Content := (informedIn ((Summarizer.handle Workers.crew.deps summaryModel Workers.crew.summarizer
  (read.request "t1" .summarizer).taskId (read.request "t1" .summarizer).content).run []).1).getD []

def summarized : System := read.next Env.validating {} (read.answering "t1" .summarizer summary)

def glossed : System :=
  summarized.next Env.validating {} (summarized.answering "t1" .terminology (terminologyContent [graphsTerm]))

/-- The quiz agent and the recommender have theirs. -/
def studied : System := glossed.next Env.validating {} (glossed.hearing [.summarizer, .terminology] 2)

def quizModel : Llm Unit := fun _ _ =>
  .ok "\x7b\"questions\": [\x7b\"question\": \"what are graphs\", \"type\": \"open_answer\"\x7d]\x7d".toList

def quiz : Content := (informedIn ((Workers.crew.quizAgent.handle quizModel (studied.request "t1" .testGenerator).taskId
  (studied.request "t1" .testGenerator).content).run []).1).getD []

def examined : System := studied.next Env.validating {} (studied.answering "t1" .testGenerator quiz)

def cited : System :=
  examined.next Env.validating {} (examined.answering "t1" .recommender (recommenderContent [graphsCitation]))

def run : List Label :=
  [.coordinator (.submit workshop 0), asked.answering "t1" .transcriber transcription,
    transcribed.hearing [.transcriber] 1, read.answering "t1" .summarizer summary,
    summarized.answering "t1" .terminology (terminologyContent [graphsTerm]),
    glossed.hearing [.summarizer, .terminology] 2, studied.answering "t1" .testGenerator quiz,
    examined.answering "t1" .recommender (recommenderContent [graphsCitation]),
    cited.hearing [.testGenerator, .recommender] 3]

def ended : System := run.foldl (System.next Env.validating {}) System.idle

theorem ready_run :
    LTS.Admits (System.Ready (Workers.crew.Informed Unit) Env.validating workshop) (System.next Env.validating {})
      System.idle run := by
  have htranscription : Workers.crew.Informed Unit .transcriber (asked.request "t1" .transcriber) transcription :=
    .transcriber ⟨fakeTranscriberAdapter⟩ (eq_of_informedIn (by decide +kernel))
  have hsummary : Workers.crew.Informed Unit .summarizer (read.request "t1" .summarizer) summary :=
    .summarizer summaryModel [] (eq_of_informedIn (by decide +kernel))
  have hquiz : Workers.crew.Informed Unit .testGenerator (studied.request "t1" .testGenerator) quiz :=
    .testGenerator quizModel [] (eq_of_informedIn (by decide +kernel))
  have hterms : Workers.crew.Informed Unit .terminology (summarized.request "t1" .terminology)
      (terminologyContent [graphsTerm]) :=
    informed_terms (show sourcesOf Workers.crew.str (summarized.request "t1" .terminology).content =
      [("chunk-d1-0", "[fake transcript of a.wav in ru]")] by decide +kernel) (by decide +kernel)
  have hcitations : Workers.crew.Informed Unit .recommender (examined.request "t1" .recommender)
      (recommenderContent [graphsCitation]) :=
    informed_citations (by decide +kernel) (by decide +kernel) (by decide +kernel)
  exact ⟨System.ready_submit, System.ready_answering (by decide +kernel) htranscription,
    System.ready_hearing (by decide +kernel) 1, System.ready_answering (by decide +kernel) hsummary,
    System.ready_answering (by decide +kernel) hterms, System.ready_hearing (by decide +kernel) 2,
    System.ready_answering (by decide +kernel) hquiz, System.ready_answering (by decide +kernel) hcitations,
    System.ready_hearing (by decide +kernel) 3, trivial⟩

/-- A finalization with a content for every operation of the workshop. -/
def isFull : Event → Bool
  | .finalizing _ _ s => (buildPlan workshop).subtasks.all fun sub => (s.results.content? sub.id).isSome
  | _ => false

theorem exists_full : ∃ cause status s, Event.finalizing cause status s ∈ (ended.coordinator.outside "t1").history ∧
    ∀ sub ∈ (buildPlan workshop).subtasks, (s.results.content? sub.id).isSome = true := by
  obtain ⟨e, he, hfull⟩ :=
    List.any_eq_true.mp (show (ended.coordinator.outside "t1").history.any isFull = true by decide +kernel)
  cases e with
  | finalizing cause status s => exact ⟨cause, status, s, he, List.all_eq_true.mp hfull⟩
  | _ => cases hfull

def deployed : Deployment := run.foldl (Deployment.after Env.validating {}) ⟨System.idle, {}⟩

theorem reachable_deployed (starts : Task → Prop) (hs : starts workshop) :
    (deployment (Workers.crew.Informed Unit) starts Env.validating {}).Reachable deployed ∧ deployed.system = ended :=
  Deployment.reachable_foldl hs ⟨⟨System.idle, {}⟩, [], ⟨start_idle, rfl⟩, .nil _⟩ ready_run

theorem noCrash_run : Label.crash ∉ run := by simp [run, System.answering, System.hearing]

end Workshop

section

variable {κ σ ε : Type} [LinearOrder κ] {w : Workers κ σ} {starts : Task → Prop} {env : Env} {cfg : Config}

theorem allows_mono {inputs inputs' : Inputs} {c : Coordinator} {a : Action} (hk : Keyed c)
    (ha : (Assumptions.loading inputs).allows env c a) (hs : ∀ task, inputs.starts task → inputs'.starts task)
    (hl : ∀ task sid content, inputs.loads task sid content → inputs'.loads task sid content) :
    (Assumptions.loading inputs').allows env c a :=
  allows_of_loading hk ha hs
    (fun task _ ht => ⟨hs task ht.1, fun sid content hc => hl task sid content (ht.2 sid content hc)⟩)
    fun _ _ _ _ _ _ _ _ _ _ _ => trivial

/-- What recovery loads from typed tables is formed. -/
theorem enabled_formed {k : Quality} {informs : Informs} {d : Deployment} (hk : Keyed d.system.coordinator)
    (ht : d.store.Typed k) {l : Label}
    (he : d.system.Enabled informs (Deployment.recovers starts env d.store) env l) :
    d.system.Enabled informs (formedInputs k starts) env l := by
  cases l with
  | coordinator a =>
    refine ⟨allows_mono hk he.1 (fun _ ht => ht) ?_, he.2⟩
    rintro task sid content ⟨results, hload, hget⟩
    obtain ⟨results', hload', hformed⟩ := ResultStore.loadResults_formed env ht task.id
    obtain rfl := Except.ok.inj (hload.symm.trans hload')
    exact hformed sid content hget
  | agent who arrival => exact he
  | restart who => trivial
  | crash => trivial

/-- **What a tick saves, the row mapping knows**, and the task it is for was started. -/
theorem jobs_emitted {k : Quality} {d : Deployment}
    (hs : Correlated (w.Informed ε) (formedInputs k starts) env cfg d.system) {l : Label}
    (he : d.system.Enabled (w.Informed ε) (formedInputs k starts) env l) {job : Job} (hj : job ∈ d.jobs env l) :
    ∃ task, starts task ∧ task.id = job.taskId ∧ job.operation ∈ eligibleOperations task ∧
      Emits (documentOf task) task.id job.operation job.content ∧ Formed w.quality job.operation job.content := by
  cases l with
  | coordinator a =>
    obtain ⟨task, request, results, hstart, hid, hop, htid, hpay, hinf⟩ := job_informed hs he hj
    exact ⟨task, hstart, hid, hop, emits_informed hinf hop htid hpay⟩
  | agent => cases hj
  | restart => cases hj
  | crash => cases hj

/-- Saves of what the row mapping knows keep the tables typed. -/
theorem commits_typed {k : Quality} {jobs : List Job} {st : ResultStore} (ht : st.Typed k)
    (hj : ∀ job ∈ jobs, ∃ doc, Emits doc job.taskId job.operation job.content ∧
      Formed k job.operation job.content) :
    (jobs.foldl (Deployment.commit env) st).Typed k := by
  induction jobs generalizing st with
  | nil => exact ht
  | cons job jobs ih =>
    rw [List.forall_mem_cons] at hj
    obtain ⟨⟨doc, hem, hformed⟩, hj⟩ := hj
    refine ih ?_ hj
    unfold Deployment.commit
    split
    · rename_i saved hsave
      exact ht.saveResult hem hformed hsave
    · exact ht

/-- The system of a deployment is a system of the agents. -/
theorem deployed_inductive (w : Workers κ σ) (ε : Type) (starts : Task → Prop) (env : Env) (cfg : Config) :
    (deployment (w.Informed ε) starts env cfg).Inductive fun d =>
      (system (w.Informed ε) (formedInputs w.quality starts) env cfg).Reachable d.system ∧ d.store.Typed w.quality where
  init d h := ⟨⟨d.system, [], h.1, .nil _⟩, by rw [h.2]; exact ResultStore.typed_empty⟩
  step d r d' h hs := by
    obtain ⟨⟨he, hcommits⟩, rfl⟩ := hs
    obtain ⟨hr, ht⟩ := h
    have hcorr := (correlated_inductive (w.Informed ε) (formedInputs w.quality starts) env cfg).reachable _ hr
    have hformed := enabled_formed (keyed_of_reachable hcorr.reachable) ht he
    refine ⟨hr.step ⟨hformed, rfl⟩, commits_typed ht fun job hj => ?_⟩
    obtain ⟨task, -, hid, -, hem, hquality⟩ := jobs_emitted hcorr hformed (hcommits hj)
    exact ⟨documentOf task, hid ▸ hem, hquality⟩

/-- The saves of a tick are saves of the run that `L3Runs.Saves` is about. -/
theorem commits_saved {k : Quality} {docs : Documents} {jobs : List Job} {db : Database}
    (hdb : (saves docs env).Reachable db)
    (hj : ∀ job ∈ jobs, ∃ task, task.documents = docs.list task.id ∧ task.id = job.taskId ∧
      job.operation ∈ eligibleOperations task ∧ Emits (documentOf task) task.id job.operation job.content ∧
        Formed k job.operation job.content) :
    ∃ db', (saves docs env).Reachable db' ∧ db'.store = jobs.foldl (Deployment.commit env) db.store := by
  induction jobs generalizing db with
  | nil => exact ⟨db, hdb, rfl⟩
  | cons job jobs ih =>
    rw [List.forall_mem_cons] at hj
    obtain ⟨⟨task, hdocs, hid, hop, hem, -⟩, hj⟩ := hj
    have hnext : (db.next env ⟨task, job.operation, job.content⟩).store = Deployment.commit env db.store job := by
      rw [Database.next, Deployment.commit, hid]
      split <;> rename_i hsave <;> rw [hsave]
    have hsave : Save.Informed docs ⟨task, job.operation, job.content⟩ := ⟨hdocs, hop, hem⟩
    obtain ⟨db', hdb', hstore⟩ := ih (hdb.step ⟨hsave, rfl⟩) hj
    exact ⟨db', hdb', by rw [hstore, hnext, List.foldl_cons]⟩

/-- **The tables of a deployment** are those of a run of saves: whatever the coordinator is handed
and however often it crashes, it saves nothing but what its agents informed for the documents of
the task. -/
theorem deployed_saves (w : Workers κ σ) (ε : Type) (docs : Documents) (env : Env) (cfg : Config) {d : Deployment}
    (hr : (deployment (w.Informed ε) (fun task => task.documents = docs.list task.id) env cfg).Reachable d) :
    ∃ db, (saves docs env).Reachable db ∧ db.store = d.store := by
  have hdep := deployed_inductive w ε (fun task => task.documents = docs.list task.id) env cfg
  have hind : (deployment (w.Informed ε) (fun task => task.documents = docs.list task.id) env cfg).Inductive fun d =>
      ((system (w.Informed ε) (formedInputs w.quality fun task => task.documents = docs.list task.id) env cfg).Reachable
        d.system ∧ d.store.Typed w.quality) ∧ ∃ db, (saves docs env).Reachable db ∧ db.store = d.store := by
    constructor
    · intro d h
      exact ⟨hdep.init d h, {}, ⟨{}, [], rfl, .nil _⟩, h.2.symm⟩
    · intro d r d' h hs
      refine ⟨hdep.step d r d' h.1 hs, ?_⟩
      obtain ⟨⟨hsys, htyped⟩, db, hdb, hstore⟩ := h
      obtain ⟨⟨he, hcommits⟩, rfl⟩ := hs
      have hcorr := (correlated_inductive (w.Informed ε) (formedInputs w.quality _) env cfg).reachable _ hsys
      have hformed := enabled_formed (keyed_of_reachable hcorr.reachable) htyped he
      obtain ⟨db', hdb', hstore'⟩ := commits_saved hdb fun job hj => jobs_emitted hcorr hformed (hcommits hj)
      exact ⟨db', hdb', by rw [hstore', hstore]; rfl⟩
  exact (hind.reachable d hr).2

theorem deployed_saves_workshop : ∃ db, (saves lectureDocuments Env.validating).Reachable db ∧
    db.store = Workshop.deployed.store ∧ (db.store.stored "t1" .f1Transcribe).length = 1 := by
  obtain ⟨db, hdb, hstore⟩ := deployed_saves Workers.crew Unit lectureDocuments Env.validating {}
    (Workshop.reachable_deployed (fun task => task.documents = lectureDocuments.list task.id) rfl).1
  exact ⟨db, hdb, hstore, by rw [hstore]; decide +kernel⟩

/-- Contents that agents informed or recovery loaded are formed. -/
theorem allFormed_of_traced {s : TaskState} {h : List Event} (hwf : s.Wf)
    (ht : Traced (w.Informed ε) (formedInputs w.quality starts) s h) :
    AllFormed w.quality (buildPlan s.task) s.results := by
  intro sub hs content hc
  rw [content?_eq, Option.join_eq_some_iff] at hc
  obtain ⟨op, -, rfl⟩ := mem_buildPlan.mp hs
  rcases ht _ (by rw [hwf.plan_eq]; exact hs) content hc with ⟨op', hid, hformed⟩ |
    ⟨request, task, results, hinf, htid, -, -, hid, hop, hpay⟩
  · rw [show (subtaskFor s.task.id (eligibleOperations s.task) op).operation = op' from subtaskIdFor_inj hid]
    exact hformed
  · exact (emits_informed hinf hop (htid.trans hid.symm) hpay).2

/-- Whatever was finalized is assembled, of things of the promised quality. -/
theorem finalized_assembles {env : Env} (hv : env.validators.Faithful) {s : System}
    (hs : Correlated (w.Informed ε) (formedInputs w.quality starts) env cfg s) {tid : String} {cause : Cause}
    {status : TaskStatus} {state : TaskState}
    (hm : .finalizing cause status state ∈ (s.coordinator.outside tid).history) (now : ℚ) :
    ∃ artifact, assembleArtifact env.validators state status now = .ok artifact ∧
      (∀ op, dumped artifact.result op =
        if op ∈ eligibleOperations state.task then heldOf state.task.id state.results op else []) ∧
      Meets w.quality artifact.result := by
  have hinv := taskInv_chronicle (.correlated (w.Informed ε) (formedInputs w.quality starts)) env cfg
  obtain ⟨-, task, habout⟩ := hinv.histories hs.reachable tid
  obtain ⟨-, hwf, -⟩ := habout _ hm
  have hformed := allFormed_of_traced hwf ((hs.traced tid).2 cause status state hm)
  obtain ⟨payload, hok, hparts⟩ := assemblePayload_formed hv hformed
  exact ⟨_, by rw [assembleArtifact, hwf.plan_eq, hok]; rfl, hparts, meets_assembled hformed hparts⟩

/-- **Every artifact is assembled.** In every reachable deployment, after any number of crashes and
failures, recovery reads every task back, and whatever was finalized is assembled without raising:
each part of the payload is what the content of its operation holds, and of the quality that the
agent promises. -/
theorem artifacts_assemble (w : Workers κ σ) (ε : Type) {env : Env} (hv : env.validators.Faithful) (cfg : Config)
    {starts : Task → Prop} {d : Deployment} (hr : (deployment (w.Informed ε) starts env cfg).Reachable d) :
    (∀ tid, ∃ results, d.store.loadResults env tid = .ok results ∧ FormedEntries w.quality tid results) ∧
    ∀ tid cause status s, Event.finalizing cause status s ∈ (d.system.coordinator.outside tid).history → ∀ now,
      ∃ artifact, assembleArtifact env.validators s status now = .ok artifact ∧
        (∀ op, dumped artifact.result op =
          if op ∈ eligibleOperations s.task then heldOf s.task.id s.results op else []) ∧
        Meets w.quality artifact.result := by
  obtain ⟨hsys, htyped⟩ := (deployed_inductive w ε starts env cfg).reachable d hr
  have hcorr := (correlated_inductive (w.Informed ε) (formedInputs w.quality starts) env cfg).reachable _ hsys
  exact ⟨fun tid => ResultStore.loadResults_formed env htyped tid,
    fun _ _ _ _ hm now => finalized_assembles hv hcorr hm now⟩

theorem artifacts_assemble_workshop :
    (∃ results, Workshop.deployed.store.loadResults Env.validating "t1" = .ok results) ∧ ∃ cause status s artifact,
      Event.finalizing cause status s ∈ (Workshop.deployed.system.coordinator.outside "t1").history ∧
      (∀ sub ∈ (buildPlan workshop).subtasks, (s.results.content? sub.id).isSome = true) ∧
      assembleArtifact Env.validating.validators s status 1 = .ok artifact ∧
      ∀ op ∈ eligibleOperations s.task, dumped artifact.result op = heldOf s.task.id s.results op := by
  obtain ⟨hr, hended⟩ := Workshop.reachable_deployed (fun _ => True) trivial
  obtain ⟨hload, hall⟩ :=
    artifacts_assemble Workers.crew Unit (faithful_ofDumps : Env.validating.validators.Faithful) {} hr
  obtain ⟨results, hok, -⟩ := hload "t1"
  obtain ⟨cause, status, s, hm, hfull⟩ := Workshop.exists_full
  rw [← hended] at hm
  obtain ⟨artifact, ha, hparts, -⟩ := hall "t1" cause status s hm 1
  exact ⟨⟨results, hok⟩, cause, status, s, artifact, hm, hfull, ha, fun op hop => by rw [hparts, if_pos hop]⟩

end

end MasResearch.L3
