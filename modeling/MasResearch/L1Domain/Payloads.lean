import MasResearch.Core.Dict
import MasResearch.L1Domain.Plan

/-!
# Results, join rules and request payloads (`agents/payloads.py`)

`Results` is the `results` map of a task: a content for a subtask that informed,
`none` for one that failed or was skipped.

`DepsResolved` and `JoinMet` are the two tests the dispatcher makes before it
requests a subtask. Both, and the payload `buildPayload` makes, read the results
of the subtask's in-plan dependencies only:

* `depsResolved_congr`, `joinMet_congr`: on results that agree there.
* `Extends.agreeOn`: results that grow agree on resolved dependencies.
* `buildPayload_congr`: on results that agree there and hold plan ids only.
-/
namespace MasResearch.L1

/-- `dict[str, object | None]`. -/
abbrev Results := Dict String (Option Content)

/-- `results.get(id)`: an absent id and a failed one both read `None`. -/
def Results.content? (r : Results) (sid : String) : Option Content := r.getD sid none

/-- mirrors src/agents/payloads.py:26-30 -/
def firstDocument (task : Task) (types : List DocumentType) : Option (String × String) :=
  (task.documents.find? fun d => d.documentType ∈ types).map fun d => (d.id, d.filePath)

/-- mirrors src/agents/payloads.py:33-35 -/
def contentOf (results : Results) (taskId : String) (operation : Operation) : Content :=
  (results.content? (subtaskIdFor taskId operation)).getD []

/-- mirrors src/agents/payloads.py:38-45 -/
def chunksOf (results : Results) (taskId : String) : List Value :=
  [Operation.f1Transcribe, .f2Ocr].flatMap fun operation =>
    match (contentOf results taskId operation).get? "chunks" with
    | some (.list raw) => raw
    | _ => []

/-- mirrors src/agents/payloads.py:48-53 -/
def buildTranscriber (task : Task) : Content :=
  match firstDocument task [.audio] with
  | none => []
  | some (documentId, filePath) =>
    [("document_id", .str documentId), ("file_path", .str filePath), ("language", .str "ru")]

/-- mirrors src/agents/payloads.py:56-64 -/
def buildOcr (task : Task) : Content :=
  match task.documents.find? fun d => d.documentType = .pdf ∨ d.documentType = .image with
  | none => []
  | some d => [("document_id", .str d.id), ("file_path", .str d.filePath),
      ("document_type", .str d.documentType.value)]

/-- mirrors src/agents/payloads.py:23,67-68 -/
def buildSummarizer (task : Task) (results : Results) : Content :=
  [("chunks", .list (chunksOf results task.id)), ("max_length_chars", .int 4000),
    ("structure", .list [.str "introduction", .str "thesis", .str "conclusion"])]

/-- mirrors src/agents/payloads.py:71-72 -/
def buildTerminology (task : Task) (results : Results) : Content :=
  [("chunks", .list (chunksOf results task.id)), ("top_n", .int 10)]

/-- mirrors src/agents/payloads.py:75-77 -/
def buildTestGenerator (task : Task) (results : Results) : Content :=
  [("summary", .dict (contentOf results task.id .f3Summarize)), ("num_questions", .int 5),
    ("difficulty", .str "medium")]

/-- mirrors src/agents/payloads.py:80-84 -/
def buildRecommender (task : Task) (results : Results) : Content :=
  let terms := match (contentOf results task.id .f5Terms).get? "terms" with
    | some (.list raw) => raw
    | _ => []
  [("summary", .dict (contentOf results task.id .f3Summarize)), ("terms", .list terms), ("n", .int 3),
    ("filters", .dict [])]

/-- mirrors src/agents/payloads.py:87-110 -/
def buildPayload (subtask : Subtask) (task : Task) (results : Results) : Content :=
  match subtask.operation with
  | .f1Transcribe => buildTranscriber task
  | .f2Ocr => buildOcr task
  | .f3Summarize => buildSummarizer task results
  | .f4Test => buildTestGenerator task results
  | .f5Terms => buildTerminology task results
  | .f6Recommend => buildRecommender task results

/-! ## The dispatcher's tests on the dependencies -/

/-- Every dependency has an entry in `results`. -/
def DepsResolved (sub : Subtask) (results : Results) : Prop := ∀ dep ∈ sub.dependsOn, dep ∈ results

/-- The join rule: without dependencies it holds; `any` asks for one dependency
with a content, `all` for a content of each. -/
def JoinMet (sub : Subtask) (results : Results) : Prop :=
  sub.dependsOn = [] ∨ match sub.join with
    | .any => ∃ dep ∈ sub.dependsOn, (results.content? dep).isSome
    | .all => ∀ dep ∈ sub.dependsOn, (results.content? dep).isSome

instance (sub : Subtask) (results : Results) : Decidable (DepsResolved sub results) :=
  inferInstanceAs (Decidable (∀ dep ∈ sub.dependsOn, dep ∈ results))

instance (sub : Subtask) (results : Results) : Decidable (JoinMet sub results) := by
  unfold JoinMet
  cases sub.join <;> exact inferInstance

theorem content?_eq (r : Results) (sid : String) : r.content? sid = (r.get? sid).join := by
  cases h : r.get? sid <;> simp [Results.content?, Dict.getD_eq, h]

/-- The results agree on the dependencies of `sub`. -/
def AgreeOn (sub : Subtask) (r r' : Results) : Prop := ∀ dep ∈ sub.dependsOn, r.get? dep = r'.get? dep

theorem depsResolved_congr {sub : Subtask} {r r' : Results} (h : AgreeOn sub r r') :
    DepsResolved sub r ↔ DepsResolved sub r' := by
  refine forall₂_congr fun dep hd => ?_
  rw [Dict.mem_iff_get?, Dict.mem_iff_get?, h dep hd]

theorem joinMet_congr {sub : Subtask} {r r' : Results} (h : AgreeOn sub r r') :
    JoinMet sub r ↔ JoinMet sub r' := by
  have hc : ∀ dep ∈ sub.dependsOn, r.content? dep = r'.content? dep := fun dep hd => by
    rw [content?_eq, content?_eq, h dep hd]
  unfold JoinMet
  cases sub.join with
  | all => exact or_congr_right (forall₂_congr fun dep hd => by rw [hc dep hd])
  | any => exact or_congr_right (exists_congr fun dep => and_congr_right fun hd => by rw [hc dep hd])

/-! ## Results that grow -/

/-- `r'` has the entries of `r`, and maybe more. -/
def Extends (r r' : Results) : Prop := ∀ sid v, r.get? sid = some v → r'.get? sid = some v

theorem Extends.refl (r : Results) : Extends r r := fun _ _ h => h

theorem Extends.trans {r r' r'' : Results} (h : Extends r r') (h' : Extends r' r'') : Extends r r'' :=
  fun sid v hv => h' sid v (h sid v hv)

theorem Extends.mem {r r' : Results} (h : Extends r r') {sid : String} (hm : sid ∈ r) : sid ∈ r' := by
  obtain ⟨v, hv⟩ := Dict.exists_get? hm
  exact Dict.mem_of_get? (h sid v hv)

/-- Resolved dependencies stay as they are. -/
theorem Extends.agreeOn {r r' : Results} (h : Extends r r') {sub : Subtask} (hd : DepsResolved sub r) :
    AgreeOn sub r r' := by
  intro dep hdep
  obtain ⟨v, hv⟩ := Dict.exists_get? (hd dep hdep)
  rw [hv, h dep v hv]

theorem extends_set {r : Results} {sid : String} (h : sid ∉ r) (v : Option Content) :
    Extends r (r.set sid v) := by
  intro k w hk
  have hne : k ≠ sid := by rintro rfl; exact h (Dict.mem_of_get? hk)
  rw [Dict.get?_set, if_neg hne, hk]

/-- An entry that agrees with `r'` keeps `r` inside. -/
theorem Extends.set {r r' : Results} (h : Extends r r') {sid : String} {v : Option Content}
    (hv : r'.get? sid = some v) : Extends (r.set sid v) r' := by
  intro k w hk
  rw [Dict.get?_set] at hk
  split at hk
  · rename_i he; cases hk; rw [he, hv]
  · exact h k w hk

/-! ## What a payload reads -/

/-- Both maps hold ids of the plan only. -/
def InPlan (task : Task) (r : Results) : Prop := ∀ sid, sid ∈ r → sid ∈ (buildPlan task).ids

theorem contentOf_congr {task : Task} {op : Operation}
    {up : Operation} (hup : up ∈ dependencyMap op) {r r' : Results} (hr : InPlan task r)
    (hr' : InPlan task r')
    (h : AgreeOn (subtaskFor task.id (eligibleOperations task) op) r r') :
    contentOf r task.id up = contentOf r' task.id up := by
  have key : r.get? (subtaskIdFor task.id up) = r'.get? (subtaskIdFor task.id up) := by
    by_cases he : up ∈ eligibleOperations task
    · exact h _ (mem_dependsOn.mpr ⟨up, hup, he, rfl⟩)
    · -- an upstream operation outside the plan has no entry in either map
      have hout : subtaskIdFor task.id up ∉ (buildPlan task).ids := by
        intro hin
        obtain ⟨sub, hs, hid⟩ := Plan.mem_ids.mp hin
        obtain ⟨op', hop', rfl⟩ := mem_buildPlan.mp hs
        rw [subtaskIdFor_inj (show subtaskIdFor task.id op' = subtaskIdFor task.id up from hid)] at hop'
        exact he hop'
      rw [Dict.not_mem_iff.mp fun hin => hout (hr _ hin),
        Dict.not_mem_iff.mp fun hin => hout (hr' _ hin)]
  simp only [contentOf, content?_eq, key]

/-- A payload reads the results of the subtask's dependencies only. -/
theorem buildPayload_congr {task : Task} {sub : Subtask} (hs : sub ∈ (buildPlan task).subtasks)
    {r r' : Results} (hr : InPlan task r) (hr' : InPlan task r') (h : AgreeOn sub r r') :
    buildPayload sub task r = buildPayload sub task r' := by
  obtain ⟨op, -, rfl⟩ := mem_buildPlan.mp hs
  have hc := fun up hup => @contentOf_congr task op up hup r r' hr hr' h
  cases op with
  | f1Transcribe => rfl
  | f2Ocr => rfl
  | f3Summarize =>
    simp only [buildPayload, subtaskFor, buildSummarizer, chunksOf, List.flatMap_cons,
      List.flatMap_nil, hc .f1Transcribe (by decide), hc .f2Ocr (by decide)]
  | f4Test =>
    simp only [buildPayload, subtaskFor, buildTestGenerator, hc .f3Summarize (by decide)]
  | f5Terms =>
    simp only [buildPayload, subtaskFor, buildTerminology, chunksOf, List.flatMap_cons,
      List.flatMap_nil, hc .f1Transcribe (by decide), hc .f2Ocr (by decide)]
  | f6Recommend =>
    simp only [buildPayload, subtaskFor, buildRecommender, hc .f3Summarize (by decide),
      hc .f5Terms (by decide)]

/-- A payload reads the task's id and documents only. -/
theorem buildPayload_task {s t : Task} (hid : s.id = t.id) (hdoc : s.documents = t.documents)
    (sub : Subtask) (r : Results) : buildPayload sub s r = buildPayload sub t r := by
  unfold buildPayload buildTranscriber buildOcr buildSummarizer buildTestGenerator buildTerminology
    buildRecommender firstDocument
  rw [hid, hdoc]

end MasResearch.L1
