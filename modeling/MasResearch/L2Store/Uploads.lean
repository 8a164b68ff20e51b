import MasResearch.Core.Interleaving
import MasResearch.Core.Paths
import MasResearch.L2Store.CreateTask

/-!
# Uploaded files (`_safe_destination`, `_save_upload` in `api/routes.py`)

`storeTask` is the upload endpoint with the files it writes. What a client calls its files and how
they are read is arbitrary; where a path leads, links included, and which calls of the file system
raise are parameters.

* `yields_createTask`: it answers what `createTask` answers.
* `uploads_contained`: it writes nothing outside the directory of the task, and no file beyond the
  size limit, whether it returns or raises.
* `uploads_stored`: if there are no links in that directory, each document of a submitted task has
  a file of its own, which is what was uploaded.
* `uploads_accepted`: and exactly the forms that are valid are accepted.
-/
namespace MasResearch.L2

open MasResearch.L1

abbrev Bytes := List UInt8

/-- mirrors src/api/routes.py:23 -/
def maxUploadBytes : Nat := 200 * 1024 * 1024

/-- Where a path leads, and which calls return: opening a file, and writing to one that has so many
bytes. -/
structure Files where
  resolve : PurePath → PurePath
  opens : PurePath → Bool
  writes : PurePath → Nat → Bool

/-- The files, by where their paths lead. -/
abbrev Disk := PurePath → Option Bytes

/-- What the calls of `upload.read` give; after them they give nothing. -/
structure UploadFile extends Upload where
  reads : List Bytes

/-! ## Destinations -/

/-- mirrors src/api/routes.py:20 -/
def uploadRoot : PurePath := .parse "data/uploads".toList

/-- mirrors src/api/routes.py:103 -/
def uploadDir (taskId : String) : PurePath := uploadRoot.join taskId.toList

/-- mirrors src/api/routes.py:42-45 -/
def baseName (originalName : Option String) (index : Nat) : String :=
  let candidate := match originalName with
    | some name => if name = "" then numbered "file" index else name
    | none => numbered "file" index
  let name := (PurePath.parse candidate.toList).name
  if name = "" ∨ name = "." ∨ name = ".." then numbered "file" index else name

/-- `f"{index:02d}"`. -/
def padded (index : Nat) : String := if index < 10 then "0" ++ toString index else toString index

/-- `f"{index:02d}-{base_name}"`. -/
def fileName (originalName : Option String) (index : Nat) : String :=
  padded index ++ "-" ++ baseName originalName index

/-- mirrors src/api/routes.py:40-50 -/
def safeDestination (fs : Files) (taskDir : PurePath) (originalName : Option String) (index : Nat) :
    Except HttpException PurePath :=
  let destination := taskDir.join (fileName originalName index).toList
  if (fs.resolve destination).IsRelativeTo (fs.resolve taskDir) then .ok destination
  else .error ⟨400, "invalid filename"⟩

/-! ## Files -/

section

variable {σ : Type} [Storage σ PurePath Bytes] (fs : Files) (path : PurePath)

/-- An exception the endpoint does not turn into an answer. -/
def serverError : HttpException := ⟨500, "Internal Server Error"⟩

/-- `destination.open("wb")`, after making its directory. -/
def openFile : Exec σ HttpException Unit :=
  if fs.opens path then Exec.change (fs.resolve path) fun _ => some []
  else Exec.raise serverError

def writeChunk (written : Nat) (chunk : Bytes) : Exec σ HttpException Unit :=
  if fs.writes path written then Exec.change (fs.resolve path) (Option.map (· ++ chunk))
  else Exec.raise serverError

/-- mirrors src/api/routes.py:63-70 -/
def writeReads : List Bytes → Nat → Exec σ HttpException Unit
  | [], _ => pure ()
  | chunk :: reads, written =>
    if chunk = [] then pure ()
    else if maxUploadBytes < written + chunk.length then Exec.raise ⟨413, "file exceeds size limit"⟩
    else do
      writeChunk fs path written chunk
      writeReads reads (written + chunk.length)

/-- mirrors src/api/routes.py:57-72 -/
def writeUpload (reads : List Bytes) : Exec σ HttpException Unit := do
  openFile fs path
  writeReads fs path reads 0

/-- mirrors src/api/routes.py:110-132 -/
def storeUpload (server : Server) (fs : Files) (taskId : String) (file : UploadFile) (index : Nat) :
    Exec σ HttpException Document := do
  let destination ← Exec.lift (safeDestination fs (uploadDir taskId) file.filename index)
  writeUpload fs destination file.reads
  pure { id := numbered ("doc-" ++ taskId) index, taskId := taskId
         documentType := detectDocumentType server file.toUpload, filePath := String.ofList destination.str
         originalName := file.filename }

/-- mirrors src/api/routes.py:75-139 -/
def storeTask (server : Server) (fs : Files) (taskId : String) (files : List UploadFile) (ops : List String) :
    Exec σ HttpException Task := do
  Exec.lift (requireFields server files ops)
  if files = [] then Exec.raise ⟨400, "no files provided"⟩
  else do
    let operations ← Exec.lift (parseOperations ops)
    let unsupported := (files.filter fun file => detectDocumentType server file.toUpload = .text).map fun file =>
      file.filename
    if unsupported ≠ [] then
      Exec.raise ⟨400, "unsupported document type(s): " ++ server.repr unsupported ++ "; supported: audio, pdf, image"⟩
    else do
      let documents ← Exec.collect files.zipIdx fun file => storeUpload server fs taskId file.1 file.2
      pure { id := taskId, requestedOutputs := operations, conversationId := "conv-" ++ taskId, documents := documents }

end

/-! ## Names -/

theorem isDigit_of_mem_toString {n : Nat} {c : Char} (h : c ∈ (toString n).toList) : c.isDigit = true := by
  rw [Nat.toString_eq_repr, Nat.toList_repr] at h
  exact Nat.isDigit_of_mem_toDigits (by decide) (by decide) h

theorem isDigit_of_mem_padded {n : Nat} {c : Char} (h : c ∈ (padded n).toList) : c.isDigit = true := by
  unfold padded at h
  split at h
  · rw [String.toList_append] at h
    rcases List.mem_append.mp h with h | h
    · obtain rfl : c = '0' := by simpa using h
      decide
    · exact isDigit_of_mem_toString h
  · exact isDigit_of_mem_toString h

theorem padded_inj {m n : Nat} (h : padded m = padded n) : m = n := by
  have hvalue : ∀ k, Nat.ofDigitChars 10 (padded k).toList 0 = k := by
    intro k
    unfold padded
    split
    · rw [String.toList_append, Nat.toString_eq_repr, Nat.toList_repr]
      simp [Nat.ofDigitChars_cons]
    · rw [Nat.toString_eq_repr, Nat.toList_repr]
      simp
  rw [← hvalue m, h, hvalue]

theorem isPart_fallback (index : Nat) : IsPart (numbered "file" index) := by
  have hlist : (numbered "file" index).toList = 'f' :: ("ile-".toList ++ (toString index).toList) := by
    simp [numbered]
  refine ⟨fun h => ?_, fun h => ?_, fun h => ?_⟩
  · rw [h] at hlist; cases hlist
  · rw [h] at hlist; cases hlist
  · rw [hlist] at h
    rcases List.mem_cons.mp h with h | h
    · cases h
    · rcases List.mem_append.mp h with h | h
      · revert h; decide
      · exact absurd (isDigit_of_mem_toString h) (by decide)

theorem isPart_baseName (originalName : Option String) (index : Nat) : IsPart (baseName originalName index) := by
  have hname : ∀ p : PurePath,
      IsPart (if p.name = "" ∨ p.name = "." ∨ p.name = ".." then numbered "file" index else p.name) := by
    intro p
    split
    · exact isPart_fallback index
    · rename_i h
      rw [not_or] at h
      exact PurePath.isPart_name h.1
  exact hname _

theorem toList_fileName (originalName : Option String) (index : Nat) : (fileName originalName index).toList =
    (padded index).toList ++ '-' :: (baseName originalName index).toList := by
  simp [fileName]

/-- **What the client calls a file** does not lead out of the directory. -/
theorem isPart_fileName (originalName : Option String) (index : Nat) : IsPart (fileName originalName index) := by
  have hdash : '-' ∈ (fileName originalName index).toList := by
    rw [toList_fileName]
    exact List.mem_append_right _ List.mem_cons_self
  refine ⟨fun h => ?_, fun h => ?_, fun h => ?_⟩
  · rw [h] at hdash; cases hdash
  · rw [h] at hdash; revert hdash; decide
  · rw [toList_fileName] at h
    rcases List.mem_append.mp h with h | h
    · exact absurd (isDigit_of_mem_padded h) (by decide)
    · rcases List.mem_cons.mp h with h | h
      · cases h
      · exact (isPart_baseName originalName index).2.2 h

theorem fileName_inj {a b : Option String} {i j : Nat} (h : fileName a i = fileName b j) : i = j := by
  have hdash : ∀ k, '-' ∉ (padded k).toList := fun k hk => absurd (isDigit_of_mem_padded hk) (by decide)
  have h' : (fileName a i).toList.takeWhile (· ≠ '-') = (fileName b j).toList.takeWhile (· ≠ '-') := by rw [h]
  have htake : ∀ (name : Option String) (k : Nat),
      (fileName name k).toList.takeWhile (· ≠ '-') = (padded k).toList := by
    intro name k
    have hall : ∀ c ∈ (padded k).toList, decide (c ≠ '-') = true := fun c hc =>
      decide_eq_true fun he => hdash k (he ▸ hc)
    rw [toList_fileName, List.takeWhile_append_of_pos hall]
    simp
  rw [htake, htake] at h'
  exact padded_inj (String.toList_inj.mp h')

/-! ## One file -/

/-- What was uploaded. -/
def UploadFile.body (file : UploadFile) : Bytes := (file.reads.takeWhile (· ≠ [])).flatten

section

variable {fs : Files} {path : PurePath}

theorem run_writeReads (fs : Files) (path : PurePath) : ∀ (reads : List Bytes) (disk : Disk) {content : Bytes},
    disk (fs.resolve path) = some content → content.length ≤ maxUploadBytes →
    ∃ r content', (writeReads fs path reads content.length).run disk =
        (r, Function.update disk (fs.resolve path) (some content')) ∧ content'.length ≤ maxUploadBytes ∧
      (r = .ok () → content' = content ++ (reads.takeWhile (· ≠ [])).flatten)
  | [], disk, content, hd, hlen =>
    ⟨.ok (), content, by rw [Function.update_eq_self_iff.mpr hd.symm]; rfl, hlen, by simp⟩
  | chunk :: reads, disk, content, hd, hlen => by
    have hsame : Function.update disk (fs.resolve path) (some content) = disk := Function.update_eq_self_iff.mpr hd.symm
    by_cases hempty : chunk = []
    · exact ⟨.ok (), content, by rw [hsame, writeReads, if_pos hempty]; rfl, hlen, by simp [hempty]⟩
    by_cases hlarge : maxUploadBytes < content.length + chunk.length
    · exact ⟨_, content, by rw [hsame, writeReads, if_neg hempty, if_pos hlarge]; rfl, hlen, fun h => (by cases h)⟩
    cases hw : fs.writes path content.length with
    | false =>
      refine ⟨.error serverError, content, ?_, hlen, fun h => (by cases h)⟩
      rw [hsame, writeReads, if_neg hempty, if_neg hlarge, Exec.run_bind, writeChunk, hw]
      rfl
    | true =>
      obtain ⟨r, content', hrun, hlen', hok⟩ := run_writeReads fs path reads
        (Function.update disk (fs.resolve path) (some (content ++ chunk))) (Function.update_self ..)
        (by rw [List.length_append]; omega)
      refine ⟨r, content', ?_, hlen', fun h => ?_⟩
      · rw [writeReads, if_neg hempty, if_neg hlarge, Exec.run_bind, writeChunk, hw, if_pos rfl, Exec.run_change, hd]
        rw [List.length_append, Function.update_idem] at hrun
        exact hrun
      · rw [hok h, List.takeWhile_cons_of_pos (by simpa using hempty), List.flatten_cons, List.append_assoc]

/-- **One file**: it is not there, or within the limit, and when the call returns what was uploaded. -/
theorem run_writeUpload (fs : Files) (path : PurePath) (reads : List Bytes) (disk : Disk) :
    (∃ e, (writeUpload fs path reads).run disk = (.error e, disk)) ∨
    ∃ r content, (writeUpload fs path reads).run disk = (r, Function.update disk (fs.resolve path) (some content)) ∧
      content.length ≤ maxUploadBytes ∧ (r = .ok () → content = (reads.takeWhile (· ≠ [])).flatten) := by
  unfold writeUpload openFile
  cases ho : fs.opens path with
  | false => exact .inl ⟨serverError, rfl⟩
  | true =>
    obtain ⟨r, content, hrun, hlen, hok⟩ := run_writeReads fs path reads
      (Function.update disk (fs.resolve path) (some [])) (Function.update_self ..) (Nat.zero_le _)
    rw [Function.update_idem] at hrun
    exact .inr ⟨r, content, hrun, hlen, hok⟩

end

/-! ## The directory of a task -/

/-- Nothing outside the directory was written, and no file beyond the limit. -/
def Contained (root : PurePath) (before after : Disk) : Prop := ∀ path, after path = before path ∨
  path.IsRelativeTo root ∧ ∃ content, after path = some content ∧ content.length ≤ maxUploadBytes

/-- There are no links in the directory. -/
def Files.Unlinked (fs : Files) (dir : PurePath) : Prop := ∀ part, IsPart part →
  fs.resolve (dir.join part.toList) = (fs.resolve dir).join part.toList

/-- Where the file of an upload goes. -/
def destination (taskId : String) (originalName : Option String) (index : Nat) : PurePath :=
  (uploadDir taskId).join (fileName originalName index).toList

section

variable {server : Server} {fs : Files} {taskId : String} {disk : Disk}

theorem safeDestination_ok {originalName : Option String} {index : Nat} {path : PurePath}
    (h : safeDestination fs (uploadDir taskId) originalName index = .ok path) :
    path = destination taskId originalName index ∧ (fs.resolve path).IsRelativeTo (fs.resolve (uploadDir taskId)) := by
  unfold safeDestination at h
  dsimp only at h
  split at h
  · cases h
    exact ⟨rfl, ‹_›⟩
  · cases h

theorem contained_storeUpload (before : Disk) (file : UploadFile) (index : Nat) :
    Exec.Maintains (Contained (fs.resolve (uploadDir taskId)) before) (storeUpload server fs taskId file index) := by
  intro disk h
  rw [storeUpload, Exec.run_bind, Exec.run_lift]
  cases hd : safeDestination fs (uploadDir taskId) file.filename index with
  | error e => exact h
  | ok path =>
    obtain ⟨-, hinside⟩ := safeDestination_ok hd
    rcases run_writeUpload fs path file.reads disk with ⟨e, hrun⟩ | ⟨r, content, hrun, hlen, -⟩
    · simp only [Exec.run_bind, hrun]
      exact h
    · have hupdate : Contained (fs.resolve (uploadDir taskId)) before
          (Function.update disk (fs.resolve path) (some content)) := by
        intro p
        by_cases hp : p = fs.resolve path
        · subst hp
          exact .inr ⟨hinside, content, Function.update_self .., hlen⟩
        · rw [Function.update_of_ne hp]
          exact h p
      simp only [Exec.run_bind, hrun]
      cases r <;> exact hupdate

/-- **Uploads stay in their directory** and within the limit, whatever the client calls its files,
wherever links lead, and also when the endpoint raises. -/
theorem uploads_contained (server : Server) (fs : Files) (taskId : String) (files : List UploadFile)
    (ops : List String) (disk : Disk) :
    Contained (fs.resolve (uploadDir taskId)) disk ((storeTask server fs taskId files ops).run disk).2 := by
  have hkeeps : Exec.Maintains (Contained (fs.resolve (uploadDir taskId)) disk)
      (storeTask server fs taskId files ops) := by
    refine Exec.Maintains.bind (fun _ h => h) fun _ => ?_
    split
    · exact fun _ h => h
    refine Exec.Maintains.bind (fun _ h => h) fun operations => ?_
    dsimp only
    split
    · exact fun _ h => h
    · exact (Exec.Maintains.collect fun file _ => contained_storeUpload disk file.1 file.2).bind fun _ =>
        Exec.Maintains.pure _
  exact hkeeps disk fun _ => .inl rfl

/-- Without links the guard lets every name pass. -/
theorem safeDestination_unlinked (hl : fs.Unlinked (uploadDir taskId)) (originalName : Option String) (index : Nat) :
    safeDestination fs (uploadDir taskId) originalName index = .ok (destination taskId originalName index) := by
  have hpart := isPart_fileName originalName index
  obtain ⟨hroot, htail⟩ := PurePath.join_part (fs.resolve (uploadDir taskId)) hpart
  unfold safeDestination
  dsimp only
  rw [if_pos, destination]
  rw [hl _ hpart, PurePath.IsRelativeTo, hroot, htail]
  exact ⟨rfl, List.prefix_append _ _⟩

theorem resolve_destination_inj (hl : fs.Unlinked (uploadDir taskId)) {a b : Option String} {i j : Nat}
    (h : fs.resolve (destination taskId a i) = fs.resolve (destination taskId b j)) : i = j := by
  rw [destination, destination, hl _ (isPart_fileName a i), hl _ (isPart_fileName b j)] at h
  exact fileName_inj (PurePath.join_inj (isPart_fileName a i) (isPart_fileName b j) h)

/-- The document has the file that was uploaded. -/
structure StoredAs (server : Server) (fs : Files) (taskId : String) (disk : Disk) (file : UploadFile) (index : Nat)
    (d : Document) : Prop where
  id : d.id = numbered ("doc-" ++ taskId) index
  filePath : d.filePath.toList = (destination taskId file.filename index).str
  originalName : d.originalName = file.filename
  documentType : d.documentType = detectDocumentType server file.toUpload
  content : disk (fs.resolve (.parse d.filePath.toList)) = some file.body
  limited : file.body.length ≤ maxUploadBytes

theorem run_storeUpload (hl : fs.Unlinked (uploadDir taskId)) {file : UploadFile} {index : Nat} {d : Document}
    {disk' : Disk} (h : (storeUpload server fs taskId file index).run disk = (.ok d, disk')) :
    StoredAs server fs taskId disk' file index d ∧
      disk' = Function.update disk (fs.resolve (destination taskId file.filename index)) (some file.body) := by
  obtain ⟨path, disk1, hd, h⟩ := Exec.bind_ok h
  rw [Exec.run_lift, safeDestination_unlinked hl] at hd
  cases hd
  obtain ⟨u, disk2, hw, h⟩ := Exec.bind_ok h
  cases h
  rcases run_writeUpload fs (destination taskId file.filename index) file.reads disk with ⟨e, hrun⟩ |
    ⟨r, content, hrun, hlen, hok⟩
  · rw [hrun] at hw; cases hw
  · rw [hrun] at hw
    cases hw
    obtain rfl : content = file.body := hok rfl
    refine ⟨⟨rfl, String.toList_ofList, rfl, rfl, ?_, hlen⟩, rfl⟩
    dsimp only
    rw [String.toList_ofList, PurePath.parse_str, Function.update_self]

theorem StoredAs.later {file : UploadFile} {index : Nat} {d : Document} {disk' : Disk}
    (h : StoredAs server fs taskId disk file index d)
    (he : disk' (fs.resolve (destination taskId file.filename index)) =
      disk (fs.resolve (destination taskId file.filename index))) : StoredAs server fs taskId disk' file index d where
  id := h.id
  filePath := h.filePath
  originalName := h.originalName
  documentType := h.documentType
  content := by
    have hc := h.content
    rw [h.filePath, PurePath.parse_str] at hc ⊢
    rw [he, hc]
  limited := h.limited

/-- Every file of the loop is stored, and what comes later leaves it alone. -/
theorem run_storeUploads (hl : fs.Unlinked (uploadDir taskId)) :
    ∀ (files : List UploadFile) (k : Nat) {disk disk' : Disk} {documents : List Document},
    (Exec.collect (files.zipIdx k) fun file => storeUpload server fs taskId file.1 file.2).run disk =
      (.ok documents, disk') →
    List.Forall₂ (fun file d => StoredAs server fs taskId disk' file.1 file.2 d) (files.zipIdx k) documents ∧
    ∀ path, (∀ name, ∀ i ≥ k, path ≠ fs.resolve (destination taskId name i)) → disk' path = disk path
  | [], k, disk, disk', documents, h => by cases h; exact ⟨.nil, fun _ _ => rfl⟩
  | file :: files, k, disk, disk', documents, h => by
    rw [List.zipIdx_cons, Exec.collect] at h
    obtain ⟨d, disk1, hfirst, h⟩ := Exec.bind_ok h
    obtain ⟨rest, disk2, hrest, h⟩ := Exec.bind_ok h
    cases h
    obtain ⟨hstored, rfl⟩ := run_storeUpload hl hfirst
    obtain ⟨hall, hframe⟩ := run_storeUploads hl files (k + 1) hrest
    refine ⟨.cons (hstored.later (hframe _ fun name i hi he => ?_)) hall, fun path hp => ?_⟩
    · have := resolve_destination_inj hl he
      omega
    · rw [hframe path fun name i hi => hp name i (by omega), Function.update_of_ne (hp file.filename k le_rfl)]

theorem storeTask_ok {files : List UploadFile} {ops : List String} {task : Task} {disk' : Disk}
    (h : (storeTask server fs taskId files ops).run disk = (.ok task, disk')) : ∃ operations documents,
      parseOperations ops = .ok operations ∧
      (Exec.collect files.zipIdx fun file => storeUpload server fs taskId file.1 file.2).run disk =
        (.ok documents, disk') ∧
      task = { id := taskId, requestedOutputs := operations, conversationId := "conv-" ++ taskId
               documents := documents } := by
  obtain ⟨_, disk0, hfields, h⟩ := Exec.bind_ok h
  rw [Exec.run_lift, Prod.mk.injEq] at hfields
  obtain ⟨-, rfl⟩ := hfields
  split at h
  · cases h
  obtain ⟨operations, disk1, hops, h⟩ := Exec.bind_ok h
  rw [Exec.run_lift, Prod.mk.injEq] at hops
  obtain ⟨hops, rfl⟩ := hops
  dsimp only at h
  split at h
  · cases h
  obtain ⟨documents, disk2, hdocs, h⟩ := Exec.bind_ok h
  cases h
  exact ⟨operations, documents, hops, hdocs, rfl⟩

end

/-! ## The endpoint without the files -/

/-- What writing a file answers. -/
def writeOutcome (fs : Files) (path : PurePath) (reads : List Bytes) : Except HttpException Unit :=
  ((writeUpload fs path reads).run (fun _ => none : Disk)).1

/-- The server of `createTask` whose `save` answers what is answered for the file. -/
def Server.storing (server : Server) (fs : Files) (files : List UploadFile) : Server where
  lower := server.lower
  repr := server.repr
  unprocessable := server.unprocessable
  save taskId _ index := match files[index]? with
    | none => .error serverError
    | some file => do
      let path ← safeDestination fs (uploadDir taskId) file.filename index
      writeOutcome fs path file.reads
      return String.ofList path.str

section

variable {server : Server} {fs : Files} {taskId : String}

theorem replays_writeReads {S : PurePath → Prop} {path : PurePath} (h : S (fs.resolve path)) :
    ∀ (reads : List Bytes) (written : Nat),
      Exec.Replays S (writeReads fs path reads written) (writeReads fs path reads written)
  | [], _ => Exec.Replays.pure ()
  | chunk :: reads, written => by
    unfold writeReads writeChunk
    split
    · exact Exec.Replays.pure ()
    split
    · exact Exec.Replays.raise _
    split
    · exact (Exec.Replays.change h _).bind fun _ => replays_writeReads h reads _
    · exact (Exec.Replays.raise _).bind fun _ => replays_writeReads h reads _

/-- Writing a file changes that file, and nothing depends on what is there. -/
theorem replays_writeUpload {S : PurePath → Prop} {path : PurePath} (h : S (fs.resolve path)) (reads : List Bytes) :
    Exec.Replays S (writeUpload fs path reads) (writeUpload fs path reads) := by
  unfold writeUpload openFile
  split
  · exact (Exec.Replays.change h _).bind fun _ => replays_writeReads h reads 0
  · exact (Exec.Replays.raise _).bind fun _ => replays_writeReads h reads 0

theorem yields_writeUpload (path : PurePath) (reads : List Bytes) :
    Exec.Yields (fun _ : Disk => True) (writeUpload fs path reads) (writeOutcome fs path reads) :=
  (replays_writeUpload (S := fun _ => True) trivial reads).yields _

theorem yields_storeUpload {files : List UploadFile} {file : UploadFile} {index : Nat} (h : files[index]? = some file) :
    Exec.Yields (fun _ : Disk => True) (storeUpload server fs taskId file index)
      (saveUpload (server.storing fs files) taskId file.toUpload index) := by
  have hsave : (server.storing fs files).save taskId file.toUpload index = do
      let path ← safeDestination fs (uploadDir taskId) file.filename index
      writeOutcome fs path file.reads
      return String.ofList path.str := by simp only [Server.storing, h]
  unfold storeUpload saveUpload
  rw [hsave]
  simp only [bind_assoc, pure_bind]
  exact (Exec.Yields.lift _).bind fun path => (yields_writeUpload path file.reads).bind fun _ => .pure _

theorem unsupported_storing (server : Server) (fs : Files) (files : List UploadFile) :
    ((files.map UploadFile.toUpload).filter fun upload =>
        detectDocumentType (server.storing fs files) upload = .text).map Upload.filename =
      (files.filter fun file => detectDocumentType server file.toUpload = .text).map fun file => file.filename := by
  rw [List.filter_map, List.map_map]
  rfl

/-- **The endpoint answers what `createTask` answers.** -/
theorem yields_createTask (server : Server) (fs : Files) (taskId : String) (files : List UploadFile)
    (ops : List String) :
    Exec.Yields (fun _ : Disk => True) (storeTask server fs taskId files ops)
      (createTask (server.storing fs files) taskId (files.map UploadFile.toUpload) ops) := by
  have hfields : requireFields (server.storing fs files) (files.map UploadFile.toUpload) ops =
      requireFields server files ops := by simp [requireFields, Server.storing]
  unfold storeTask createTask
  rw [hfields]
  refine (Exec.Yields.lift _).bind fun _ => ?_
  by_cases hne : files = []
  · rw [if_pos hne, if_pos (by rw [hne]; rfl)]
    exact .raise _
  · rw [if_neg hne, if_neg (by simpa using hne)]
    refine (Exec.Yields.lift _).bind fun operations => ?_
    dsimp only
    rw [unsupported_storing]
    split
    · exact .raise _
    · rw [List.zipIdx_map, List.mapM_map]
      refine (Exec.Yields.collect fun file hfile => ?_).bind fun documents => .pure _
      exact yields_storeUpload (List.mem_zipIdx_iff_getElem?.mp hfile)

end

section

variable {server : Server} {fs : Files} {taskId : String} {disk : Disk}

theorem paths_nodup {files : List (UploadFile × Nat)} {documents : List Document}
    (h : List.Forall₂ (fun file d => StoredAs server fs taskId disk file.1 file.2 d) files documents)
    (hn : (files.map Prod.snd).Nodup) : (documents.map (·.filePath)).Nodup := by
  have hpaths : documents.map (fun d => d.filePath.toList) =
      files.map fun file => (destination taskId file.1.filename file.2).str := by
    clear hn
    induction h with
    | nil => rfl
    | cons hd _ ih => rw [List.map_cons, List.map_cons, hd.filePath, ih]
  have hnodup : (documents.map fun d => d.filePath.toList).Nodup := by
    rw [hpaths, List.Nodup, List.pairwise_map]
    refine (List.pairwise_map.mp hn).imp fun {a b} hne he => hne ?_
    exact fileName_inj (PurePath.join_inj (isPart_fileName _ _) (isPart_fileName _ _) (PurePath.str_inj he))
  rw [← Function.comp_def, ← List.map_map] at hnodup
  exact hnodup.of_map _

/-- What is submitted is stored. -/
theorem stored_storeTask (hl : fs.Unlinked (uploadDir taskId)) {files : List UploadFile} {ops : List String}
    {task : Task} (h : ((storeTask server fs taskId files ops).run disk).1 = .ok task) :
    task.id = taskId ∧ task.requestedOutputs.map Operation.value = ops ∧
    (∀ d ∈ task.documents, d.documentType ≠ .text) ∧ files ≠ [] ∧ ops ≠ [] ∧
    List.Forall₂ (fun file d => StoredAs server fs taskId ((storeTask server fs taskId files ops).run disk).2
      file.1 file.2 d) files.zipIdx task.documents := by
  have hcreate := (yields_createTask server fs taskId files ops disk trivial).1
  rw [h] at hcreate
  obtain ⟨hid, hops, -, hne, hsome, htext, -⟩ := createTask_ok hcreate.symm
  generalize hrun : (storeTask server fs taskId files ops).run disk = r at h
  obtain ⟨answer, disk'⟩ := r
  obtain rfl : answer = .ok task := h
  obtain ⟨operations, documents, -, hdocs, rfl⟩ := storeTask_ok hrun
  exact ⟨hid, hops, htext, by simpa using hne, hsome, (run_storeUploads hl files 0 hdocs).1⟩

/-- **Uploads are stored.** Each document of a submitted task has a file of its own, at the path
the document tells, which is what was uploaded for it. -/
theorem uploads_stored (server : Server) (fs : Files) (taskId : String) (hl : fs.Unlinked (uploadDir taskId))
    (files : List UploadFile) (ops : List String) (disk : Disk) {task : Task}
    (h : ((storeTask server fs taskId files ops).run disk).1 = .ok task) :
    task.id = taskId ∧ task.requestedOutputs.map Operation.value = ops ∧
    (∀ d ∈ task.documents, d.documentType ≠ .text) ∧ (task.documents.map (·.filePath)).Nodup ∧
    List.Forall₂ (fun file d => StoredAs server fs taskId ((storeTask server fs taskId files ops).run disk).2
      file.1 file.2 d) files.zipIdx task.documents := by
  obtain ⟨hid, hops, htext, -, -, hall⟩ := stored_storeTask hl h
  refine ⟨hid, hops, htext, paths_nodup hall ?_, hall⟩
  rw [List.zipIdx_map_snd]
  exact List.nodup_range'

/-- No links, and every call returns. -/
def plainFiles : Files := ⟨id, fun _ => true, fun _ _ => true⟩

theorem unlinked_plainFiles (dir : PurePath) : plainFiles.Unlinked dir := fun _ _ => rfl

def asciiServer : Server where
  lower s := String.ofList (s.toList.map Char.toLower)
  repr _ := ""
  unprocessable _ := ""
  save _ _ _ := .ok ""

/-- Two files of one name, which leads out of the directory. -/
def intruders : List UploadFile :=
  [{ filename := some "../a.mp3", contentType := none, reads := [[1, 2], [3]] },
    { filename := some "../a.mp3", contentType := none, reads := [[4]] }]

def intruded : Except HttpException Task × Disk :=
  (storeTask asciiServer plainFiles "t1" intruders ["F1"]).run fun _ => none

theorem uploads_stored_intruders : ∃ task, intruded.1 = .ok task ∧
    task.documents.map (·.filePath) = ["data/uploads/t1/00-a.mp3", "data/uploads/t1/01-a.mp3"] ∧
    List.Forall₂ (fun file d => StoredAs asciiServer plainFiles "t1" intruded.2 file.1 file.2 d) intruders.zipIdx
      task.documents := by
  have hpaths : (match intruded.1 with
      | .ok task => task.documents.map (·.filePath)
      | .error _ => []) = ["data/uploads/t1/00-a.mp3", "data/uploads/t1/01-a.mp3"] := by decide +kernel
  cases h : intruded.1 with
  | error e => rw [h] at hpaths; cases hpaths
  | ok task =>
    rw [h] at hpaths
    obtain ⟨-, -, -, -, hall⟩ := uploads_stored asciiServer plainFiles "t1" (unlinked_plainFiles _) intruders ["F1"] _ h
    exact ⟨task, rfl, hpaths, hall⟩

/-! ## Which forms are accepted -/

theorem parseOperations_ok_iff {ops : List String} : (∃ operations, parseOperations ops = .ok operations) ↔
    ∃ operations : List Operation, operations.map Operation.value = ops := by
  constructor
  · rintro ⟨operations, h⟩
    exact ⟨operations, map_value_parseOperations h⟩
  · rintro ⟨operations, rfl⟩
    refine ⟨operations, ?_⟩
    have hparsed : operations.mapM (operationOf ∘ Operation.value) = .ok (operations.map id) :=
      mapM_ok fun op _ => operationOf_value op
    rw [List.map_id] at hparsed
    rw [parseOperations, List.mapM_map, hparsed]

theorem answer_writeReads_ok {path : PurePath} (hw : ∀ n, fs.writes path n = true) :
    ∀ (reads : List Bytes) (written : Nat) (disk : Disk),
      written + (reads.takeWhile (· ≠ [])).flatten.length ≤ maxUploadBytes →
      ((writeReads fs path reads written).run disk).1 = .ok ()
  | [], _, _, _ => rfl
  | chunk :: reads, written, disk, h => by
    unfold writeReads
    split
    · rfl
    rename_i hne
    rw [List.takeWhile_cons_of_pos (by simpa using hne), List.flatten_cons, List.length_append] at h
    rw [if_neg (by omega), Exec.run_bind, writeChunk, if_pos (hw written)]
    exact answer_writeReads_ok hw reads _ _ (by omega)

/-- Writing a file succeeds when it is within the limit. -/
theorem writeOutcome_ok_iff {path : PurePath} (ho : fs.opens path = true) (hw : ∀ n, fs.writes path n = true)
    (reads : List Bytes) :
    writeOutcome fs path reads = .ok () ↔ (reads.takeWhile (· ≠ [])).flatten.length ≤ maxUploadBytes := by
  constructor
  · intro h
    rcases run_writeUpload fs path reads (fun _ => none) with ⟨e, hrun⟩ | ⟨r, content, hrun, hlen, hok⟩
    · rw [writeOutcome, hrun] at h; cases h
    · rw [writeOutcome, hrun] at h
      rw [← hok h]
      exact hlen
  · intro h
    rw [writeOutcome, writeUpload, openFile, if_pos ho]
    exact answer_writeReads_ok hw reads 0 _ (by omega)

theorem saveUpload_storing (hl : fs.Unlinked (uploadDir taskId)) (ho : ∀ path, fs.opens path = true)
    (hw : ∀ path n, fs.writes path n = true) {files : List UploadFile} {file : UploadFile} {index : Nat}
    (hget : files[index]? = some file) (hlimit : file.body.length ≤ maxUploadBytes) :
    ∃ d, saveUpload (server.storing fs files) taskId file.toUpload index = .ok d := by
  have hwrite := (writeOutcome_ok_iff (ho (destination taskId file.filename index)) (hw _) file.reads).mpr hlimit
  have hsave : (server.storing fs files).save taskId file.toUpload index =
      .ok (String.ofList (destination taskId file.filename index).str) := by
    simp only [Server.storing, hget, safeDestination_unlinked hl]
    show (writeOutcome fs (destination taskId file.filename index) file.reads >>= fun _ => pure _) = _
    rw [hwrite]
    rfl
  unfold saveUpload
  rw [hsave]
  exact ⟨_, rfl⟩

/-- **The forms that are accepted**, when the calls of the file system return: those with a file and
an operation, known operations, no plain text and no file beyond the limit. -/
theorem uploads_accepted (server : Server) (fs : Files) (taskId : String) (hl : fs.Unlinked (uploadDir taskId))
    (ho : ∀ path, fs.opens path = true) (hw : ∀ path n, fs.writes path n = true) (files : List UploadFile)
    (ops : List String) (disk : Disk) :
    (∃ task, ((storeTask server fs taskId files ops).run disk).1 = .ok task) ↔
      files ≠ [] ∧ ops ≠ [] ∧ (∃ operations : List Operation, operations.map Operation.value = ops) ∧
      ∀ file ∈ files, detectDocumentType server file.toUpload ≠ .text ∧ file.body.length ≤ maxUploadBytes := by
  constructor
  · rintro ⟨task, h⟩
    obtain ⟨-, hops, htext, hne, hsome, hall⟩ := stored_storeTask hl h
    refine ⟨hne, hsome, ⟨_, hops⟩, fun file hfile => ?_⟩
    obtain ⟨i, hi⟩ := List.mem_iff_getElem?.mp hfile
    have hin : (file, i) ∈ files.zipIdx := List.mem_zipIdx_iff_getElem?.mpr hi
    obtain ⟨d, hd, hstored⟩ := exists_mem_of_forall₂ hall hin
    exact ⟨by rw [← hstored.documentType]; exact htext d hd, hstored.limited⟩
  · rintro ⟨hne, hsome, hops, hall⟩
    obtain ⟨operations, hparsed⟩ := parseOperations_ok_iff.mpr hops
    obtain ⟨documents, hdocs⟩ : ∃ documents, (files.zipIdx.mapM fun file =>
        saveUpload (server.storing fs files) taskId file.1.toUpload file.2) = .ok documents := by
      simp only [mapM_ok_iff]
      refine exists_forall₂_iff.mpr fun file hfile => ?_
      have hget := List.mem_zipIdx_iff_getElem?.mp hfile
      exact saveUpload_storing hl ho hw hget (hall _ (List.mem_of_getElem? hget)).2
    have hsupported : ((files.map UploadFile.toUpload).filter fun upload =>
        detectDocumentType (server.storing fs files) upload = .text).map Upload.filename = [] := by
      rw [unsupported_storing, List.map_eq_nil_iff, List.filter_eq_nil_iff]
      exact fun file hfile => by simpa using (hall file hfile).1
    refine ⟨{ id := taskId, requestedOutputs := operations, conversationId := "conv-" ++ taskId
              documents := documents }, (yields_createTask server fs taskId files ops disk trivial).1.trans ?_⟩
    have hfields : requireFields (server.storing fs files) (files.map UploadFile.toUpload) ops = .ok () :=
      requireFields_ok_iff.mpr ⟨by simpa using hne, hsome⟩
    refine bind_ok_iff.mpr ⟨(), hfields, ?_⟩
    rw [if_neg (by simpa using hne), hparsed]
    show (if _ then _ else _) = _
    rw [if_neg (not_not.mpr hsupported), List.zipIdx_map, List.mapM_map]
    exact bind_ok_iff.mpr ⟨documents, hdocs, rfl⟩

theorem uploads_accepted_intruders : ∃ task, intruded.1 = .ok task :=
  (uploads_accepted asciiServer plainFiles "t1" (unlinked_plainFiles _) (fun _ => rfl) (fun _ _ => rfl) intruders ["F1"]
    fun _ => none).mpr ⟨by decide, by decide, ⟨[.f1Transcribe], rfl⟩, by decide⟩

end

end MasResearch.L2
