import MasResearch.L2Store.Uploading
import MasResearch.L3Runs.Deployment

/-!
# From uploads to requests (`api/routes.py`, `agents/payloads.py`)

A deployment beside the uploads that its API serves: between two rounds any request may make its
next file call. A task is submitted when its own files are written; other uploads may be refused,
under way or cut off, and after a crash the tasks are read from the tables again.

* `intake_inductive`: its parts are a deployment of `L3Runs.Deployment` and uploads of
  `L2Store.Uploading`.
* `requests_stored`: what the transcriber and the OCR agent are asked to read is what the client
  uploaded.
-/
namespace MasResearch.L3

open MasResearch.L1 MasResearch.L2

/-- What recovery may build from the rows of a task, which come back in any order. -/
def Recovered (submitted task : Task) : Prop := ∃ status rows, rows.Perm (documentRows submitted) ∧
  taskFromRow ((TaskColumns.create submitted.id submitted.requestedOutputs).updateStatus status) rows = .ok task

structure Intake where
  deployment : Deployment
  calls : List (String × FileCall)

/-- A file call of the request with the task id, or a round of the deployment. -/
inductive Turn
  | upload (taskId : String) (call : FileCall)
  | round (r : Round)

section

variable (server : Server) (fs : Files) (forms : String → Option Form)

/-- The task of a form whose files are written. -/
def Uploaded (calls : List (String × FileCall)) (task : Task) : Prop := ∃ form submitted,
  forms task.id = some form ∧ own task.id calls = fileCalls server fs task.id form ∧
    answerTo server fs task.id form = .ok submitted ∧ (task = submitted ∨ Recovered submitted task)

namespace Intake

def Enabled (informs : Informs) (env : Env) (s : Intake) : Turn → Prop
  | .upload taskId call => own taskId s.calls ++ [call] <+: (forms taskId).elim [] (fileCalls server fs taskId)
  | .round r => s.deployment.Enabled informs (Uploaded server fs forms s.calls) env r

def next (env : Env) (cfg : Config) (s : Intake) : Turn → Intake
  | .upload taskId call => { s with calls := s.calls ++ [(taskId, call)] }
  | .round r => { s with deployment := s.deployment.next env cfg r }

def Start (s : Intake) : Prop := s.deployment.Start ∧ s.calls = []

/-- The files, from what was there before. -/
def disk (before : Disk) (s : Intake) : Disk := applyAll before (s.calls.map Prod.snd)

end Intake

def intake (informs : Informs) (env : Env) (cfg : Config) : LTS Intake Turn :=
  LTS.guarded Intake.Start (Intake.Enabled server fs forms informs env) (Intake.next env cfg)

end

section

variable {κ σ ε : Type} [LinearOrder κ] {w : Workers κ σ} {env : Env} {cfg : Config}

/-- More tasks may be started. -/
theorem deployment_mono {starts starts' : Task → Prop} (hs : ∀ task, starts task → starts' task) {d : Deployment}
    (hr : (deployment (w.Informed ε) starts env cfg).Reachable d) :
    (deployment (w.Informed ε) starts' env cfg).Reachable d := by
  have hind : (deployment (w.Informed ε) starts env cfg).Inductive
      (deployment (w.Informed ε) starts' env cfg).Reachable := by
    constructor
    · intro d h
      exact ⟨d, [], h, .nil _⟩
    · rintro d r d' h ⟨⟨he, hcommits⟩, rfl⟩
      obtain ⟨hsys, -⟩ := (deployed_inductive w ε starts' env cfg).reachable d h
      have hcorr := (correlated_inductive (w.Informed ε) (formedInputs w.quality starts') env cfg).reachable _ hsys
      refine h.step ⟨⟨?_, hcommits⟩, rfl⟩
      cases hl : r.label with
      | coordinator a =>
        rw [hl] at he
        exact ⟨allows_mono (keyed_of_reachable hcorr.reachable) he.1 hs fun _ _ _ h => h, he.2⟩
      | agent who arrival => rwa [hl] at he
      | restart who => trivial
      | crash => trivial
  exact hind.reachable d hr

variable {server : Server} {fs : Files} {forms : String → Option Form} {calls : List (String × FileCall)}

/-- An upload that is over makes no call. -/
theorem Uploaded.upload {task : Task} (h : Uploaded server fs forms calls task) {taskId : String} {call : FileCall}
    (hcall : own taskId calls ++ [call] <+: (forms taskId).elim [] (fileCalls server fs taskId)) :
    Uploaded server fs forms (calls ++ [(taskId, call)]) task := by
  obtain ⟨form, submitted, hform, hdone, hanswer⟩ := h
  refine ⟨form, submitted, hform, ?_, hanswer⟩
  rw [own_snoc, if_neg, hdone]
  rintro rfl
  rw [hform, hdone] at hcall
  have hlen := hcall.length_le
  simp at hlen

/-- **The parts of an intake**: a deployment that starts what is uploaded, and interleaved uploads. -/
theorem intake_inductive (w : Workers κ σ) (ε : Type) (server : Server) (fs : Files) (forms : String → Option Form)
    (env : Env) (cfg : Config) :
    (intake server fs forms (w.Informed ε) env cfg).Inductive fun s =>
      (deployment (w.Informed ε) (Uploaded server fs forms s.calls) env cfg).Reachable s.deployment ∧
        Interleaves server fs forms s.calls where
  init s h := by
    obtain ⟨hstart, hcalls⟩ := h
    refine ⟨⟨s.deployment, [], hstart, .nil _⟩, fun taskId => ?_⟩
    rw [hcalls]
    exact List.nil_prefix
  step s t s' h hs := by
    obtain ⟨he, rfl⟩ := hs
    obtain ⟨hr, ht⟩ := h
    cases t with
    | upload taskId call => exact ⟨deployment_mono (fun task htask => htask.upload he) hr, ht.upload he⟩
    | round r => exact ⟨hr.step ⟨he, rfl⟩, ht⟩

theorem Recovered.document {submitted task : Task} (h : Recovered submitted task) :
    task.id = submitted.id ∧ ∀ d ∈ task.documents, ∃ e ∈ submitted.documents, d = rereadDocument submitted.id e := by
  obtain ⟨status, rows, hperm, hread⟩ := h
  obtain ⟨documents, hrows, hdocs⟩ := (congrFun (congrFun (List.eq_map_comp_perm _) rows) _).mpr hperm
  rw [taskFromRow_create submitted status hrows] at hread
  cases hread
  refine ⟨rfl, fun d hd => ?_⟩
  obtain ⟨e, he, rfl⟩ := List.mem_map.mp hd
  exact ⟨e, hdocs.subset he, rfl⟩

/-- The files of a task that is started. -/
theorem Uploaded.stored (hfs : fs.Plain) (hids : ∀ taskId, (forms taskId).isSome → IsPart taskId)
    (ht : Interleaves server fs forms calls) {task : Task} (h : Uploaded server fs forms calls task) (before : Disk)
    {d : Document} (hd : d ∈ task.documents) :
    ∃ form file index, forms task.id = some form ∧ (file, index) ∈ form.files.zipIdx ∧
      StoredAs server fs task.id (applyAll before (calls.map Prod.snd)) file index d := by
  obtain ⟨form, submitted, hform, hdone, hanswer, htask⟩ := h
  obtain ⟨hid, hall⟩ := uploads_undisturbed server hfs hids ht hform hdone hanswer before
  rcases htask with rfl | hrec
  · obtain ⟨⟨file, index⟩, hfile, hstored⟩ := exists_mem_of_forall₂ hall.flip hd
    exact ⟨form, file, index, hform, hfile, hstored⟩
  · obtain ⟨e, he, rfl⟩ := hrec.document.2 d hd
    obtain ⟨⟨file, index⟩, hfile, hstored⟩ := exists_mem_of_forall₂ hall.flip he
    exact ⟨form, file, index, hform, hfile, hstored.id, hstored.filePath, hstored.originalName,
      hstored.documentType, hstored.content, hstored.limited⟩

/-- **What is asked to be read is what was uploaded.** In every reachable intake, each request to
the transcriber or the OCR agent names a file that holds what the client uploaded for that task, and
that is of a type the agent reads. -/
theorem requests_stored (w : Workers κ σ) (ε : Type) (server : Server) (hfs : fs.Plain)
    (hids : ∀ taskId, (forms taskId).isSome → IsPart taskId) (env : Env) (cfg : Config) {s : Intake}
    (hr : (intake server fs forms (w.Informed ε) env cfg).Reachable s) {op : Operation} (hop : ingests op = true)
    {request : Message} (hp : s.deployment.system.Published (operationToAgent op) request) (before : Disk) :
    ∃ form file index d, forms request.taskId = some form ∧ (file, index) ∈ form.files.zipIdx ∧
      StoredAs server fs request.taskId (s.disk before) file index d ∧ ingestedBy op d = true ∧
      request.content.get? "document_id" = some (.str d.id) ∧
      request.content.get? "file_path" = some (.str d.filePath) := by
  obtain ⟨hdep, ht⟩ := (intake_inductive w ε server fs forms env cfg).reachable s hr
  obtain ⟨hsys, -⟩ := (deployed_inductive w ε _ env cfg).reachable _ hdep
  have hcorr := (correlated_inductive (w.Informed ε) (formedInputs w.quality _) env cfg).reachable _ hsys
  obtain ⟨task, sub, results, hstart, hsub, hagent, hid, -, hpay⟩ := hcorr.published hp
  obtain ⟨op', hel, rfl⟩ := mem_buildPlan.mp hsub
  obtain rfl : op' = op := operationToAgent_inj hagent
  obtain ⟨d, hd, -, hin, hdoc, hpath⟩ := exists_requested hop hel results
  obtain ⟨form, file, index, hform, hfile, hstored⟩ := hstart.stored hfs hids ht before hd
  rw [hid, hpay]
  exact ⟨form, file, index, d, hform, hfile, hstored, hin, hdoc, hpath⟩

/-- Before anything is submitted, the uploads may stand anywhere. -/
theorem reachable_uploads {informs : Informs} (h : Interleaves server fs forms calls) :
    (intake server fs forms informs env cfg).Reachable ⟨⟨System.idle, {}⟩, calls⟩ := by
  induction calls using List.reverseRecOn with
  | nil => exact ⟨_, [], ⟨⟨start_idle, rfl⟩, rfl⟩, .nil _⟩
  | append_singleton calls x ih =>
    have hnext : own x.1 calls ++ [x.2] <+: (forms x.1).elim [] (fileCalls server fs x.1) := by
      have hx := h x.1
      rwa [own_snoc, if_pos rfl] at hx
    have hbefore : Interleaves server fs forms calls := by
      intro taskId
      have ht := h taskId
      rw [own_append] at ht
      exact (List.prefix_append _ _).trans ht
    exact (ih hbefore).step (l := .upload x.1 x.2) ⟨hnext, rfl⟩

end

/-! ## Two uploads -/

def twoForms (taskId : String) : Option Form :=
  if taskId = "t1" then some ⟨intruders, ["F1"]⟩
  else if taskId = "t2" then some ⟨intruders.reverse, ["F2"]⟩
  else none

theorem isPart_twoForms (taskId : String) (h : (twoForms taskId).isSome) : IsPart taskId := by
  unfold twoForms at h
  split at h
  · subst ‹taskId = "t1"›
    decide
  split at h
  · subst ‹taskId = "t2"›
    decide
  · cases h

def callsOf (taskId : String) : List FileCall := (twoForms taskId).elim [] (fileCalls asciiServer plainFiles taskId)

/-- The second request opens a file after the first one has opened its own. -/
def twoUploads : List (String × FileCall) :=
  ((callsOf "t1").take 1).map (Prod.mk "t1") ++ ((callsOf "t2").take 1).map (Prod.mk "t2") ++
    ((callsOf "t1").drop 1).map (Prod.mk "t1")

theorem own_twoUploads (taskId : String) : own taskId twoUploads =
    if taskId = "t1" then callsOf "t1" else if taskId = "t2" then (callsOf "t2").take 1 else [] := by
  rw [twoUploads, own_append, own_append, own_tagged, own_tagged, own_tagged]
  by_cases h1 : taskId = "t1"
  · subst h1
    simpa using List.take_append_drop 1 (callsOf "t1")
  · by_cases h2 : taskId = "t2"
    · subst h2
      simp
    · simp [h1, h2, Ne.symm h1, Ne.symm h2]

theorem interleaves_twoUploads : Interleaves asciiServer plainFiles twoForms twoUploads := by
  intro taskId
  rw [own_twoUploads]
  split
  · subst ‹taskId = "t1"›
    exact List.prefix_rfl
  split
  · subst ‹taskId = "t2"›
    exact List.take_prefix 1 _
  · exact List.nil_prefix

def intrudedTask : Task where
  id := "t1"
  requestedOutputs := [.f1Transcribe]
  conversationId := "conv-t1"
  documents := [⟨"doc-t1-0", "t1", .audio, "data/uploads/t1/00-a.mp3", some "../a.mp3", []⟩,
    ⟨"doc-t1-1", "t1", .audio, "data/uploads/t1/01-a.mp3", some "../a.mp3", []⟩]

theorem uploaded_intrudedTask : Uploaded asciiServer plainFiles twoForms twoUploads intrudedTask :=
  ⟨⟨intruders, ["F1"]⟩, intrudedTask, rfl, own_twoUploads "t1", rfl, .inl rfl⟩

/-- The first task is submitted, the second one is still uploaded. -/
def twoIntake : Intake :=
  Intake.next Env.validating {} ⟨⟨System.idle, {}⟩, twoUploads⟩ (.round ⟨.coordinator (.submit intrudedTask 0), []⟩)

theorem reachable_twoIntake :
    (intake asciiServer plainFiles twoForms (Workers.crew.Informed Unit) Env.validating {}).Reachable twoIntake :=
  (reachable_uploads interleaves_twoUploads).step (l := .round ⟨.coordinator (.submit intrudedTask 0), []⟩)
    ⟨⟨System.ready_submit _ uploaded_intrudedTask, List.nil_subset _⟩, rfl⟩

theorem requests_stored_two : ∃ request form file index d,
    twoIntake.deployment.system.Published .transcriber request ∧ twoForms request.taskId = some form ∧
    (file, index) ∈ form.files.zipIdx ∧
    StoredAs asciiServer plainFiles request.taskId (twoIntake.disk fun _ => none) file index d ∧
    request.content.get? "file_path" = some (.str d.filePath) := by
  have hp : twoIntake.deployment.system.Published .transcriber _ :=
    System.published_request (show (twoIntake.deployment.system.request? "t1" .transcriber).isSome = true by
      decide +kernel)
  obtain ⟨form, file, index, d, hform, hfile, hstored, -, -, hpath⟩ := requests_stored Workers.crew Unit asciiServer
    ⟨fun _ _ => rfl, fun _ _ _ _ => rfl⟩ isPart_twoForms Env.validating {} reachable_twoIntake
    (show ingests .f1Transcribe = true from rfl) hp fun _ => none
  exact ⟨_, form, file, index, d, hp, hform, hfile, hstored, hpath⟩

end MasResearch.L3
