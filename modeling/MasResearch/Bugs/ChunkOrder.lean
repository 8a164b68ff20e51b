import MasResearch.L2Store.Chunks
import MasResearch.L3Runs.Runs

/-!
# Chunks come back in the order of their ids, not of their indices

The ingestion agents number a document's chunks, the number ends the chunk's id
(src/agents/_chunk_stamp.py:19-28), and recovery reads the chunks back ordered by that
id, a string (src/db/repos.py:128-132). `chunk-d-10` sorts before `chunk-d-2`, so the
text of a document with more than ten chunks is reloaded out of order and the
downstream agents summarise a shuffled text. The rows carry the index in a column of
its own, `chunk_index` (src/db/models.py:54), and the adapters promise ordered chunks
(src/adapters/transcriber.py:18-20).

Counterexample (`eleven_chunks_reordered`): a transcript of eleven chunks.

`roundTrips_iff`: whatever else is in the table, and saved once or again, before or
after the other ingestion operation's chunks of the task, the chunks come back as they
were informed exactly when there are at most ten.
-/
namespace MasResearch.Bugs.ChunkOrder

open MasResearch.L1 MasResearch.L2 MasResearch.L3

/-- The contents F1 and F2 inform for a document of `task`. The adapters of F1 return
audio chunks, those of F2 extracted or recognised pages. -/
inductive Informs (task : String) : Operation → String → List TextChunk → Content → Prop
  | f1 (doc language : String) {chunks : List TextChunk} (h : ∀ c ∈ chunks, c.sourceType = .audio) :
      Informs task .f1Transcribe doc chunks (transcriberContent task doc language chunks)
  | f2 (doc : String) {chunks : List TextChunk}
      (h : ∀ c ∈ chunks, c.sourceType = .pdfExtracted ∨ c.sourceType = .image) :
      Informs task .f2Ocr doc chunks (ocrContent task doc chunks)

/-- `save_result` for each content in turn. -/
def saveAll (env : Env) (task : String) (table : ChunkTable) (saves : List Content) :
    Except PyError ChunkTable :=
  saves.foldlM (fun table content => saveChunks env table task content) table

/-- After the saves, recovery reloads the chunks of `content` for the operation. (Of a
content without chunks no row is left; the operation gets no entry and no chunk.) -/
def RoundTrips (env : Env) (table : ChunkTable) (task : String) (op : Operation) (content : Content)
    (saves : List Content) : Prop :=
  ∃ table' entry, saveAll env task table saves = .ok table' ∧ reloadChunks env table' task op = .ok entry ∧
    entryChunks entry = entryChunks (some content)

/-- The table before the task's first save: its rows were stamped, for other tasks and
other documents. -/
structure Foreign (table : ChunkTable) (task doc doc' : String) : Prop where
  stamped : ∀ row ∈ table.rows, ∃ i, row.id = chunkId row.documentId i
  task : ∀ row ∈ table.rows, row.taskId ≠ task
  doc : ∀ row ∈ table.rows, row.documentId ≠ doc ∧ row.documentId ≠ doc'

/-! ## One save -/

/-- The rows of an informed content. -/
def ownRows (task doc : String) (chunks : List TextChunk) : List TextChunkRow :=
  (stamped task doc chunks).map (TextChunk.row task)

section

variable {task doc doc' : String} {op op' : Operation} {chunks chunks' : List TextChunk}
  {content content' : Content} {table : ChunkTable}

theorem Informs.dumps (h : Informs task op doc chunks content) :
    content.get? "chunks" = some (.list ((L2.stamped task doc chunks).map TextChunk.dump)) := by
  cases h <;> rfl

theorem Informs.entryChunks (h : Informs task op doc chunks content) :
    L2.entryChunks (some content) = (L2.stamped task doc chunks).map TextChunk.dump := by
  rw [L2.entryChunks, Option.getD_some, h.dumps]

theorem mem_ownRows {row : TextChunkRow} (h : row ∈ ownRows task doc chunks) :
    ∃ c ∈ chunks, ∃ i, row.id = chunkId doc i ∧ row.documentId = doc ∧ row.taskId = task ∧
      row.sourceType = c.sourceType.value := by
  obtain ⟨chunk, hc, rfl⟩ := List.mem_map.mp h
  obtain ⟨c, hmem, i, rfl⟩ := mem_stamped hc
  exact ⟨c, hmem, i, rfl, rfl, rfl, rfl⟩

/-- The rows are bucketed under the operation that informed them. -/
theorem Informs.bucket (h : Informs task op doc chunks content) {row : TextChunkRow}
    (hr : row ∈ ownRows task doc chunks) : sourceTypeToOperation row.sourceType = some op := by
  obtain ⟨c, hc, i, -, -, -, hs⟩ := mem_ownRows hr
  rw [hs]
  cases h with
  | f1 _ _ ht => rw [ht c hc]; decide
  | f2 _ ht => rcases ht c hc with he | he <;> rw [he] <;> decide

theorem pairwise_ownRows {R : TextChunkRow → TextChunkRow → Prop}
    (h : ∀ i j, i < j → j < chunks.length → ∀ a b : TextChunkRow, a.id = chunkId doc i → b.id = chunkId doc j →
      R a b) : (ownRows task doc chunks).Pairwise R := by
  rw [List.pairwise_iff_getElem]
  intro i j hi hj hij
  have hi' : i < (L2.stamped task doc chunks).length := by simpa [ownRows] using hi
  have hj' : j < (L2.stamped task doc chunks).length := by simpa [ownRows] using hj
  obtain ⟨ci, -, hci⟩ := getElem_stamped hi'
  obtain ⟨cj, -, hcj⟩ := getElem_stamped hj'
  refine h i j hij (by rwa [length_stamped] at hj') _ _ ?_ ?_
  · simp only [ownRows, List.getElem_map, hci]; rfl
  · simp only [ownRows, List.getElem_map, hcj]; rfl

theorem filter_ownRows_self :
    (ownRows task doc chunks).filter (fun row => row.documentId = doc) = ownRows task doc chunks :=
  List.filter_eq_self.mpr fun row hr => by
    obtain ⟨-, -, -, -, hd, -⟩ := mem_ownRows hr
    simpa using hd

theorem filter_ownRows_ne {d : String} (hd : d ≠ doc) :
    (ownRows task doc chunks).filter (fun row => row.documentId = d) = [] :=
  List.filter_eq_nil_iff.mpr fun row hr => by
    obtain ⟨-, -, -, -, hdoc, -⟩ := mem_ownRows hr
    simpa [hdoc] using Ne.symm hd

/-- The rows of a content without chunks are of no document, all others of one. -/
theorem mem_documents_ownRows {d : String} :
    d ∈ (ownRows task doc chunks).map (·.documentId) ↔ chunks ≠ [] ∧ d = doc := by
  constructor
  · intro hm
    obtain ⟨row, hr, rfl⟩ := List.mem_map.mp hm
    obtain ⟨c, hc, i, -, hd, -⟩ := mem_ownRows hr
    exact ⟨List.ne_nil_of_mem hc, hd⟩
  · rintro ⟨hne, rfl⟩
    have hlen : 0 < (ownRows task d chunks).length := by
      simpa [ownRows, length_stamped] using List.length_pos_iff.mpr hne
    have hmem := List.getElem_mem hlen
    obtain ⟨-, -, -, -, hd, -⟩ := mem_ownRows hmem
    exact List.mem_map.mpr ⟨_, hmem, hd⟩

/-- The rows a save keeps. -/
def keptRows (table : ChunkTable) (task doc : String) (chunks : List TextChunk) : List TextChunkRow :=
  table.rows.filter fun row => row.documentId ∉ (ownRows task doc chunks).map (·.documentId)

/-- They are stamped for other documents, so the primary keys do not clash. -/
theorem nodup_keptRows (hst : ∀ row ∈ table.rows, ∃ i, row.id = chunkId row.documentId i) :
    ((keptRows table task doc chunks ++ ownRows task doc chunks).map (·.id)).Nodup := by
  rw [List.map_append, List.nodup_append]
  refine ⟨(List.filter_sublist.map _).nodup table.nodup, ?_, ?_⟩
  · exact List.pairwise_map.mpr (pairwise_ownRows fun i j hij _ a b ha hb he => by
      rw [ha, hb] at he
      exact absurd (chunkId_inj he).2 (Nat.ne_of_lt hij))
  · intro a ha b hb he
    obtain ⟨r, hr, rfl⟩ := List.mem_map.mp ha
    obtain ⟨r', hr', rfl⟩ := List.mem_map.mp hb
    obtain ⟨hrt, hrd⟩ := List.mem_filter.mp hr
    obtain ⟨i, hi⟩ := hst r hrt
    obtain ⟨c, hc, j, hj, -⟩ := mem_ownRows hr'
    rw [hi, hj] at he
    have hd := (mem_documents_ownRows.mpr ⟨List.ne_nil_of_mem hc, (chunkId_inj he).1⟩ :
      r.documentId ∈ (ownRows task doc chunks).map (·.documentId))
    exact absurd hd (by simpa using hrd)

theorem filter_keptRows_self : (keptRows table task doc chunks).filter (fun row => row.documentId = doc) =
    if chunks = [] then table.rows.filter fun row => row.documentId = doc else [] := by
  rw [keptRows, List.filter_filter]
  split
  · rename_i hnil
    have hown : ownRows task doc chunks = [] := by rw [hnil]; rfl
    simp [hown]
  · rename_i hne
    rw [List.filter_eq_nil_iff]
    intro row _ hb
    simp only [Bool.and_eq_true, decide_eq_true_eq] at hb
    exact hb.2 (mem_documents_ownRows.mpr ⟨hne, hb.1⟩)

theorem filter_keptRows_ne {d : String} (hd : d ≠ doc) :
    (keptRows table task doc chunks).filter (fun row => row.documentId = d) =
      table.rows.filter fun row => row.documentId = d := by
  rw [keptRows, List.filter_filter]
  refine List.filter_congr fun row _ => ?_
  by_cases he : row.documentId = d
  · have hout : d ∉ (ownRows task doc chunks).map (·.documentId) := fun hm =>
      hd (mem_documents_ownRows.mp hm).2
    simp [he, hout]
  · simp [he]

/-- Saving an informed content replaces its document's rows and no others. -/
theorem save_informed (env : Env) (h : Informs task op doc chunks content)
    (hst : ∀ row ∈ table.rows, ∃ i, row.id = chunkId row.documentId i) :
    ∃ table', saveChunks env table task content = .ok table' ∧
      (∀ row ∈ table'.rows, row ∈ table.rows ∨ row ∈ ownRows task doc chunks) ∧
      (table'.rows.filter fun row => row.documentId = doc) =
        (if chunks = [] then table.rows.filter fun row => row.documentId = doc else ownRows task doc chunks) ∧
      ∀ d, d ≠ doc → (table'.rows.filter fun row => row.documentId = d) =
        table.rows.filter fun row => row.documentId = d := by
  have hrows : chunkRows env task content = .ok (ownRows task doc chunks) := chunkRows_dump env task h.dumps
  have hnodup : ((keptRows table task doc chunks ++ ownRows task doc chunks).map (·.id)).Nodup :=
    nodup_keptRows hst
  refine ⟨⟨keptRows table task doc chunks ++ ownRows task doc chunks, hnodup⟩, ?_, ?_, ?_, ?_⟩
  · simp only [saveChunks, hrows, bind, Except.bind]
    exact dif_pos hnodup
  · intro row hr
    rcases List.mem_append.mp hr with hr | hr
    · exact .inl (List.mem_of_mem_filter hr)
    · exact .inr hr
  · rw [List.filter_append, filter_keptRows_self, filter_ownRows_self]
    split
    · rename_i hnil
      rw [show ownRows task doc chunks = [] by rw [hnil]; rfl, List.append_nil]
    · rfl
  · intro d hd
    rw [List.filter_append, filter_keptRows_ne hd, filter_ownRows_ne hd, List.append_nil]

/-! ## Any sequence of saves -/

/-- The table during the saves; `saved` once `content` was among them. -/
structure Progress (task doc doc' : String) (chunks chunks' : List TextChunk) (saved : Prop)
    (table : ChunkTable) : Prop where
  stamped : ∀ row ∈ table.rows, ∃ i, row.id = chunkId row.documentId i
  own : (table.rows.filter fun row => row.documentId = doc) = ownRows task doc chunks ∨
    ¬ saved ∧ (table.rows.filter fun row => row.documentId = doc) = []
  other : (table.rows.filter fun row => row.documentId = doc') = ownRows task doc' chunks' ∨
    (table.rows.filter fun row => row.documentId = doc') = []
  task : ∀ row ∈ table.rows, row.taskId = task → row.documentId = doc ∨ row.documentId = doc'

theorem Foreign.progress (h : Foreign table task doc doc') :
    Progress task doc doc' chunks chunks' False table where
  stamped := h.stamped
  own := .inr ⟨id, List.filter_eq_nil_iff.mpr fun row hr => by simpa using (h.doc row hr).1⟩
  other := .inr (List.filter_eq_nil_iff.mpr fun row hr => by simpa using (h.doc row hr).2)
  task row hr ht := absurd ht (h.task row hr)

theorem stamped_save {table' : ChunkTable} (hst : ∀ row ∈ table.rows, ∃ i, row.id = chunkId row.documentId i)
    (hsub : ∀ row ∈ table'.rows, row ∈ table.rows ∨ row ∈ ownRows task doc chunks) :
    ∀ row ∈ table'.rows, ∃ i, row.id = chunkId row.documentId i := by
  intro row hr
  rcases hsub row hr with hr | hr
  · exact hst row hr
  · obtain ⟨-, -, i, hi, hd, -⟩ := mem_ownRows hr
    exact ⟨i, by rw [hi, hd]⟩

/-- Saving the content itself. -/
theorem Progress.saveOwn (env : Env) {saved : Prop} (h : Progress task doc doc' chunks chunks' saved table)
    (hi : Informs task op doc chunks content) (hdoc : doc ≠ doc') :
    ∃ table', saveChunks env table task content = .ok table' ∧
      Progress task doc doc' chunks chunks' True table' := by
  obtain ⟨table', h1, hsub, hown, hother⟩ := save_informed env hi h.stamped
  refine ⟨table', h1, stamped_save h.stamped hsub, .inl ?_, ?_, ?_⟩
  · rw [hown]
    split
    · rename_i hnil
      rcases h.own with ho | ⟨-, ho⟩
      · exact ho
      · rw [ho, hnil]; rfl
    · rfl
  · rw [hother doc' (Ne.symm hdoc)]; exact h.other
  · intro row hr ht
    rcases hsub row hr with hr | hr
    · exact h.task row hr ht
    · obtain ⟨-, -, -, -, hd, -⟩ := mem_ownRows hr
      exact .inl hd

/-- Saving the other operation's content. -/
theorem Progress.saveOther (env : Env) {saved : Prop} (h : Progress task doc doc' chunks chunks' saved table)
    (hi : Informs task op' doc' chunks' content') (hdoc : doc ≠ doc') :
    ∃ table', saveChunks env table task content' = .ok table' ∧
      Progress task doc doc' chunks chunks' saved table' := by
  obtain ⟨table', h1, hsub, hown, hother⟩ := save_informed env hi h.stamped
  refine ⟨table', h1, stamped_save h.stamped hsub, ?_, ?_, ?_⟩
  · rw [hother doc hdoc]; exact h.own
  · rw [hown]
    split
    · exact h.other
    · exact .inl rfl
  · intro row hr ht
    rcases hsub row hr with hr | hr
    · exact h.task row hr ht
    · obtain ⟨-, -, -, -, hd, -⟩ := mem_ownRows hr
      exact .inr hd

theorem Progress.saves (env : Env) (hi : Informs task op doc chunks content)
    (hi' : Informs task op' doc' chunks' content') (hdoc : doc ≠ doc') {saves : List Content} {saved : Prop}
    (h : Progress task doc doc' chunks chunks' saved table) (hs : ∀ c ∈ saves, c = content ∨ c = content') :
    ∃ table', saveAll env task table saves = .ok table' ∧
      Progress task doc doc' chunks chunks' (saved ∨ content ∈ saves) table' := by
  induction saves generalizing saved table with
  | nil => exact ⟨table, rfl, h.stamped, h.own.imp_right fun ho => ⟨by simpa using ho.1, ho.2⟩, h.other, h.task⟩
  | cons c saves ih =>
    have hrest := fun x hx => hs x (List.mem_cons_of_mem c hx)
    by_cases hc : c = content
    · obtain ⟨table₁, h1, hp⟩ := h.saveOwn env hi hdoc
      obtain ⟨table', h2, hp'⟩ := ih hp hrest
      refine ⟨table', ?_, hp'.stamped, hp'.own.imp_right fun ho => absurd (.inl trivial) ho.1, hp'.other,
        hp'.task⟩
      rw [saveAll, List.foldlM_cons, hc, h1]; exact h2
    · have hc' := (hs c List.mem_cons_self).resolve_left hc
      obtain ⟨table₁, h1, hp⟩ := h.saveOther env hi' hdoc
      obtain ⟨table', h2, hp'⟩ := ih hp hrest
      refine ⟨table', ?_, hp'.stamped, hp'.own.imp_right fun ho => ⟨fun hm => ho.1 ?_, ho.2⟩, hp'.other,
        hp'.task⟩
      · rw [saveAll, List.foldlM_cons, hc', h1]; exact h2
      · exact hm.imp_right fun hm => (List.mem_cons.mp hm).resolve_left fun he => hc he.symm

/-! ## Reloading -/

/-- What recovery reads for the operation: its rows, ordered by id. -/
theorem reload_saved (env : Env) (hi : Informs task op doc chunks content)
    (hi' : Informs task op' doc' chunks' content') (hop : op ≠ op')
    (h : Progress task doc doc' chunks chunks' True table) :
    ∃ rows entry, reloadChunks env table task op = .ok entry ∧ entryChunks entry = rows.map TextChunkRow.dump ∧
      rows.Pairwise (fun a b => a.id ≤ b.id) ∧
      ((ownRows task doc chunks).Pairwise (fun a b => a.id < b.id) → rows = ownRows task doc chunks) := by
  have hown : (table.rows.filter fun row => row.documentId = doc) = ownRows task doc chunks :=
    h.own.resolve_right fun hn => hn.1 trivial
  have hmem : ∀ row ∈ table.rows, row.documentId = doc → row ∈ ownRows task doc chunks := fun row hr hd => by
    rw [← hown]; exact List.mem_filter.mpr ⟨hr, by simpa using hd⟩
  have hmem' : ∀ row ∈ table.rows, row.documentId = doc' → row ∈ ownRows task doc' chunks' := by
    intro row hr hd
    have hin : row ∈ table.rows.filter fun row => row.documentId = doc' :=
      List.mem_filter.mpr ⟨hr, by simpa using hd⟩
    rcases h.other with ho | ho
    · rwa [ho] at hin
    · rw [ho] at hin; cases hin
  have hknown : ∀ row ∈ listChunkRows table task, (sourceTypeToOperation row.sourceType).isSome = true := by
    intro row hr
    obtain ⟨hrt, ht⟩ := List.mem_filter.mp ((byKey_perm _ _).subset hr)
    rcases h.task row hrt (by simpa using ht) with hd | hd
    · rw [hi.bucket (hmem row hrt hd)]; rfl
    · rw [hi'.bucket (hmem' row hrt hd)]; rfl
  obtain ⟨entry, hentry, hchunks⟩ := reloadChunks_ok env op hknown
  refine ⟨_, entry, hentry, hchunks, (pairwise_byKey _ _).filter _, fun hlt => ?_⟩
  · refine filter_byKey ?_ hlt
    -- the task's rows of this operation are the rows of its document
    rw [List.filter_filter, ← hown]
    refine List.Perm.of_eq (List.filter_congr fun row hr => ?_)
    by_cases hd : row.documentId = doc
    · have hin := hmem row hr hd
      obtain ⟨-, -, -, -, -, ht, -⟩ := mem_ownRows hin
      simp [hi.bucket hin, ht, hd]
    · simp only [hd, decide_false, Bool.and_eq_false_iff, decide_eq_false_iff_not]
      by_cases ht : row.taskId = task
      · left
        have hd' := (h.task row hr ht).resolve_left hd
        rw [hi'.bucket (hmem' row hr hd')]
        simpa using Ne.symm hop
      · exact .inr ht

/-- At most ten chunks: the ids are in the order of the indices. -/
theorem pairwise_ten (h : chunks.length ≤ 10) :
    (ownRows task doc chunks).Pairwise fun a b => a.id < b.id :=
  pairwise_ownRows fun i j hij hj a b ha hb => by
    rw [ha, hb]
    exact numbered_lt _ hij (Nat.lt_of_lt_of_le hj h)

/-- More than ten: no list ordered by id has the chunks in order. -/
theorem ten_of_pairwise {rows : List TextChunkRow} (hr : rows.Pairwise fun a b => a.id ≤ b.id)
    (he : rows.map TextChunkRow.dump = (L2.stamped task doc chunks).map TextChunk.dump) :
    chunks.length ≤ 10 := by
  have hids : rows.map (·.id) = (L2.stamped task doc chunks).map (·.id) := by
    have hinj : Function.Injective fun s : String => some (Value.str s) := fun s t h => by
      injection h with h; injection h
    refine List.map_injective_iff.mpr hinj ?_
    have := congrArg (List.map fun v : Value => (Value.asDict v).bind (·.get? "id")) he
    rw [List.map_map, List.map_map] at this ⊢
    exact this
  have hsorted : ((L2.stamped task doc chunks).map (·.id)).Pairwise (· ≤ ·) := by
    rw [← hids]; exact List.pairwise_map.mpr hr
  by_contra hn
  have hlen : 10 < (L2.stamped task doc chunks).length := by rw [length_stamped]; omega
  obtain ⟨c2, -, h2⟩ := getElem_stamped (show 2 < (L2.stamped task doc chunks).length by omega)
  obtain ⟨c10, -, h10⟩ := getElem_stamped hlen
  have hle := List.pairwise_iff_getElem.mp hsorted 2 10 (by simp; omega) (by simpa using hlen) (by decide)
  rw [List.getElem_map, List.getElem_map, h2, h10] at hle
  exact absurd (numbered_ten_lt_two ("chunk-" ++ doc)) (not_lt.mpr hle)

/-- The saves succeed, and recovery reads the rows of the content ordered by id. -/
theorem reload_saves (env : Env) (hi : Informs task op doc chunks content)
    (hi' : Informs task op' doc' chunks' content') (hop : op ≠ op') (hdoc : doc ≠ doc')
    (ht : Foreign table task doc doc') {saves : List Content} (hs : ∀ c ∈ saves, c = content ∨ c = content')
    (hm : content ∈ saves) :
    ∃ table' rows entry, saveAll env task table saves = .ok table' ∧ reloadChunks env table' task op = .ok entry ∧
      entryChunks entry = rows.map TextChunkRow.dump ∧ rows.Pairwise (fun a b => a.id ≤ b.id) ∧
      ((ownRows task doc chunks).Pairwise (fun a b => a.id < b.id) → rows = ownRows task doc chunks) := by
  obtain ⟨table', h1, hp⟩ := ht.progress.saves env hi hi' hdoc hs
  have hp : Progress task doc doc' chunks chunks' True table' :=
    ⟨hp.stamped, .inl (hp.own.resolve_right fun hn => hn.1 (.inr hm)), hp.other, hp.task⟩
  obtain ⟨rows, entry, h2⟩ := reload_saved env hi hi' hop hp
  exact ⟨table', rows, entry, h1, h2⟩

theorem RoundTrips.length_le {env : Env} {saves : List Content} (h : RoundTrips env table task op content saves)
    (hi : Informs task op doc chunks content) (hi' : Informs task op' doc' chunks' content') (hop : op ≠ op')
    (hdoc : doc ≠ doc') (ht : Foreign table task doc doc') (hs : ∀ c ∈ saves, c = content ∨ c = content')
    (hm : content ∈ saves) : chunks.length ≤ 10 := by
  obtain ⟨table', rows, entry, h1, h2, hrows, hsorted, -⟩ := reload_saves env hi hi' hop hdoc ht hs hm
  obtain ⟨t, e, ht, he, heq⟩ := h
  rw [h1] at ht; cases ht
  rw [h2] at he; cases he
  rw [hi.entryChunks, hrows] at heq
  exact ten_of_pairwise hsorted heq

theorem roundTrips_of_length_le (env : Env) (hi : Informs task op doc chunks content)
    (hi' : Informs task op' doc' chunks' content') (hop : op ≠ op') (hdoc : doc ≠ doc')
    (ht : Foreign table task doc doc') {saves : List Content} (hs : ∀ c ∈ saves, c = content ∨ c = content')
    (hm : content ∈ saves) (hle : chunks.length ≤ 10) : RoundTrips env table task op content saves := by
  obtain ⟨table', rows, entry, h1, h2, hrows, -, hid⟩ := reload_saves env hi hi' hop hdoc ht hs hm
  refine ⟨table', entry, h1, h2, ?_⟩
  rw [hi.entryChunks, hrows, hid (pairwise_ten hle), ownRows, List.map_map]
  refine List.map_congr_left fun chunk hc => ?_
  obtain ⟨c, -, i, rfl⟩ := mem_stamped hc
  exact dump_row rfl

end

/-! ## Counterexample -/

/-- A chunk as the speech recogniser returns it, before stamping. -/
def segment : TextChunk where
  id := ""
  taskId := ""
  documentId := ""
  sourceType := .audio
  content := "..."
  chunkIndex := 0

def page : TextChunk := { segment with sourceType := .pdfExtracted }

def lectureContent (n : Nat) : Content := transcriberContent "t1" "doc-t1-0" "ru" (List.replicate n segment)

def slidesContent : Content := ocrContent "t1" "doc-t1-1" [page]

theorem informs_lecture (n : Nat) :
    Informs "t1" .f1Transcribe "doc-t1-0" (List.replicate n segment) (lectureContent n) :=
  .f1 _ _ fun c hc => by rw [(List.mem_replicate.mp hc).2]; rfl

theorem informs_slides : Informs "t1" .f2Ocr "doc-t1-1" [page] slidesContent :=
  .f2 _ fun c hc => by rw [List.mem_singleton.mp hc]; exact .inl rfl

def emptyTable : ChunkTable := ⟨[], .nil⟩

theorem foreign_emptyTable : Foreign emptyTable "t1" "doc-t1-0" "doc-t1-1" := by
  constructor <;> intro row hr <;> cases hr

/-- **Counterexample.** -/
theorem eleven_chunks_reordered :
    Informs "t1" .f1Transcribe "doc-t1-0" (List.replicate 11 segment) (lectureContent 11) ∧
    ¬ RoundTrips Env.faultless emptyTable "t1" .f1Transcribe (lectureContent 11) [lectureContent 11] := by
  refine ⟨informs_lecture 11, fun h => ?_⟩
  have := h.length_le (informs_lecture 11) informs_slides (by decide) (by decide) foreign_emptyTable (by simp)
    (by simp)
  rw [List.length_replicate] at this
  omega

/-- **Which chunk lists survive the round trip.** -/
theorem roundTrips_iff (env : Env) {task doc doc' : String} {op op' : Operation}
    {chunks chunks' : List TextChunk} {content content' : Content} {table : ChunkTable}
    (hi : Informs task op doc chunks content)
    (hi' : Informs task op' doc' chunks' content') (hop : op ≠ op') (hdoc : doc ≠ doc')
    (ht : Foreign table task doc doc') {saves : List Content} (hs : ∀ c ∈ saves, c = content ∨ c = content')
    (hm : content ∈ saves) : RoundTrips env table task op content saves ↔ chunks.length ≤ 10 :=
  ⟨fun h => h.length_le hi hi' hop hdoc ht hs hm, roundTrips_of_length_le env hi hi' hop hdoc ht hs hm⟩

theorem roundTrips_iff_slides :
    RoundTrips Env.faultless emptyTable "t1" .f1Transcribe (lectureContent 3)
      [slidesContent, lectureContent 3] :=
  (roundTrips_iff Env.faultless (informs_lecture 3) informs_slides (by decide) (by decide) foreign_emptyTable
    (by simp) (by simp)).mpr (by decide)

end MasResearch.Bugs.ChunkOrder
