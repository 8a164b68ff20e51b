import MasResearch.L2Store.Uploads

/-!
# Uploads that run at the same time (`create_task` in `api/routes.py`)

The endpoint awaits between any two calls of the file system, and other requests go on meanwhile.
Each has a directory of its own, named after its task.

* `replays_storeTask`: the file calls of a request are all in its directory.
* `uploads_undisturbed`: however the requests are interleaved, a submitted task has its files.
-/
namespace MasResearch.L2

open MasResearch.L1

/-- What a client sends. -/
structure Form where
  files : List UploadFile
  ops : List String

abbrev FileCall : Type := Change PurePath Bytes

section

variable (server : Server) (fs : Files) (taskId : String) (form : Form)

/-- The calls that change files, in the order the request makes them. -/
def fileCalls : List FileCall := ((storeTask server fs taskId form.files form.ops).run ([] : Journal PurePath Bytes)).2

/-- What the request comes to. -/
def answerTo : Except HttpException Task :=
  ((storeTask server fs taskId form.files form.ops).run ([] : Journal PurePath Bytes)).1

end

/-- There are no links in the upload directory. -/
structure Files.Plain (fs : Files) : Prop where
  root : fs.Unlinked uploadRoot
  dir : ∀ taskId, IsPart taskId → fs.Unlinked (uploadDir taskId)

/-- A request for each of some task ids, their calls in any order that keeps the order of each;
not all of them need to be at their end. -/
def Interleaves (server : Server) (fs : Files) (forms : String → Option Form) (trace : List (String × FileCall)) :
    Prop := ∀ taskId, own taskId trace <+: (forms taskId).elim [] (fileCalls server fs taskId)

/-- In the directory of the task. -/
def Inside (fs : Files) (taskId : String) (p : PurePath) : Prop := p.IsRelativeTo (fs.resolve (uploadDir taskId))

section

variable {server : Server} {fs : Files} {taskId : String}

theorem replays_storeUpload (server : Server) (fs : Files) (taskId : String) (file : UploadFile) (index : Nat) :
    Exec.Replays (Inside fs taskId) (storeUpload server fs taskId file index)
      (storeUpload server fs taskId file index) :=
  Exec.Replays.lift_bind fun path hpath =>
    have hinside : Inside fs taskId (fs.resolve path) := (safeDestination_ok hpath).2
    (replays_writeUpload hinside file.reads).bind fun _ => Exec.Replays.pure _

/-- The endpoint changes nothing outside its directory, and decides nothing by what is there. -/
theorem replays_storeTask (server : Server) (fs : Files) (taskId : String) (files : List UploadFile)
    (ops : List String) :
    Exec.Replays (Inside fs taskId) (storeTask server fs taskId files ops) (storeTask server fs taskId files ops) := by
  refine Exec.Replays.lift_bind fun _ _ => ?_
  split
  · exact Exec.Replays.raise _
  refine Exec.Replays.lift_bind fun operations _ => ?_
  dsimp only
  split
  · exact Exec.Replays.raise _
  · have hall : Exec.Replays (Inside fs taskId)
        (Exec.collect files.zipIdx fun file => storeUpload server fs taskId file.1 file.2)
        (Exec.collect files.zipIdx fun file => storeUpload server fs taskId file.1 file.2) := by
      apply Exec.Replays.collect
      intro file
      exact replays_storeUpload server fs taskId file.1 file.2
    exact hall.bind fun documents => Exec.Replays.pure _

theorem run_fileCalls (server : Server) (fs : Files) (taskId : String) (form : Form) (disk : Disk) :
    (storeTask server fs taskId form.files form.ops).run disk =
      (answerTo server fs taskId form, applyAll disk (fileCalls server fs taskId form)) := by
  obtain ⟨r, calls, -, hlog, hdisk⟩ := replays_storeTask server fs taskId form.files form.ops
  simp only [answerTo, fileCalls, hlog, hdisk, List.nil_append]

theorem place_fileCalls {form : Form} {c : FileCall} (h : c ∈ fileCalls server fs taskId form) :
    Inside fs taskId c.place := by
  obtain ⟨r, calls, hin, hlog, -⟩ := replays_storeTask server fs taskId form.files form.ops
  rw [fileCalls, hlog] at h
  exact hin c h

/-- Two tasks have two directories, and neither is in the other. -/
theorem uploadDir_disjoint (hfs : fs.Plain) {a b : String} (ha : IsPart a) (hb : IsPart b) {p : PurePath}
    (hpa : Inside fs a p) (hpb : Inside fs b p) : a = b := by
  have htail : ∀ {t : String}, IsPart t → (fs.resolve (uploadDir t)).tail = (fs.resolve uploadRoot).tail ++ [t] := by
    intro t ht
    rw [uploadDir, hfs.root t ht]
    exact (PurePath.join_part _ ht).2
  have hprefix := List.prefix_of_prefix_length_le hpa.2 hpb.2 (by simp [htail ha, htail hb])
  have heq := hprefix.eq_of_length (by simp [htail ha, htail hb])
  rw [htail ha, htail hb] at heq
  simpa using heq

theorem inside_destination (hfs : fs.Plain) (ht : IsPart taskId) (name : Option String) (index : Nat) :
    Inside fs taskId (fs.resolve (destination taskId name index)) :=
  (safeDestination_ok (safeDestination_unlinked (hfs.dir taskId ht) name index)).2

theorem Interleaves.upload {forms : String → Option Form} {trace : List (String × FileCall)}
    (h : Interleaves server fs forms trace) {taskId : String} {call : FileCall}
    (hcall : own taskId trace ++ [call] <+: (forms taskId).elim [] (fileCalls server fs taskId)) :
    Interleaves server fs forms (trace ++ [(taskId, call)]) := by
  intro other
  rw [own_snoc]
  split
  · subst ‹taskId = other›
    exact hcall
  · exact h other

/-- **Uploads do not disturb each other.** However the calls of any number of requests are
interleaved, some of them refused or under way: each document of a submitted task has a file that is
what was uploaded for it. -/
theorem uploads_undisturbed (server : Server) (hfs : fs.Plain) {forms : String → Option Form}
    (hids : ∀ taskId, (forms taskId).isSome → IsPart taskId) {trace : List (String × FileCall)}
    (ht : Interleaves server fs forms trace) {form : Form} (hf : forms taskId = some form)
    (hdone : own taskId trace = fileCalls server fs taskId form) {task : Task}
    (hok : answerTo server fs taskId form = .ok task) (disk : Disk) :
    task.id = taskId ∧ List.Forall₂ (fun file d =>
      StoredAs server fs taskId (applyAll disk (trace.map Prod.snd)) file.1 file.2 d)
        form.files.zipIdx task.documents := by
  have hpart := hids taskId (by rw [hf]; rfl)
  have hrun := run_fileCalls server fs taskId form disk
  rw [hok] at hrun
  have hanswer : ((storeTask server fs taskId form.files form.ops).run disk).1 = .ok task := congrArg Prod.fst hrun
  obtain ⟨hid, -, -, -, -, hall⟩ := stored_storeTask (hfs.dir taskId hpart) hanswer
  refine ⟨hid, hall.imp fun file d hd => hd.later ?_⟩
  -- a call of another request is in another directory
  have halone : ∀ x ∈ trace, x.2.place = fs.resolve (destination taskId file.1.filename file.2) → x.1 = taskId := by
    rintro ⟨other, c⟩ hx hplace
    have hc : c ∈ own other trace := List.mem_map.mpr ⟨_, List.mem_filter.mpr ⟨hx, decide_eq_true rfl⟩, rfl⟩
    have hcalls := (ht other).subset hc
    cases ho : forms other with
    | none => rw [ho] at hcalls; cases hcalls
    | some otherForm =>
      rw [ho] at hcalls
      exact uploadDir_disjoint hfs (hids other (by rw [ho]; rfl)) hpart (place_fileCalls hcalls)
        (hplace ▸ inside_destination hfs hpart _ _)
  rw [applyAll_own halone, hdone, hrun]

end

end MasResearch.L2
