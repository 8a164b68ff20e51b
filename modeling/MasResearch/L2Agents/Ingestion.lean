import MasResearch.L2Adapters.Pages
import MasResearch.L2Adapters.Whisper
import MasResearch.L2Store.ResultRows

/-!
# The ingestion agents (`agents/transcriber.py`, `agents/ocr.py`)

Both check the request, have their adapter read the file, and stamp the chunks. An adapter may
raise; what it gives is of the type of the file, which is a field of the adapter. There are two of
each: the one that reads the file and the fake one.

* `TranscriberAgent.informed`, `OcrAgent.informed`: what is informed are the stamped chunks of the
  document that was asked about.
* `ocr_replied`: what becomes of a request to the OCR agent over PyMuPDF and EasyOCR, after any
  others.
-/
namespace MasResearch.L2

open MasResearch.L1

/-! ## Adapters -/

/-- mirrors src/adapters/transcriber.py:17-23 -/
structure TranscriberAdapter (ε : Type) where
  transcribe : String → String → Except ε (List TextChunk)
  audio : ∀ {filePath language chunks}, transcribe filePath language = .ok chunks →
    ∀ chunk ∈ chunks, chunk.sourceType = .audio

/-- What a document of this type is extracted as. -/
def extractedType (documentType : String) : SourceType := if documentType = "pdf" then .pdfExtracted else .image

/-- An adapter may keep something from one file to the next.
mirrors src/adapters/ocr.py:19-29 -/
structure OcrAdapter (σ ε : Type) where
  extract : String → String → Exec σ ε (List TextChunk)
  extracted : ∀ {filePath documentType s chunks}, ((extract filePath documentType).run s).1 = .ok chunks →
    ∀ chunk ∈ chunks, chunk.sourceType = extractedType documentType

namespace Whisper

theorem audio_flush {s : Filling} (h : ∀ chunk ∈ s.chunks, chunk.sourceType = .audio) :
    ∀ chunk ∈ (flush s).chunks, chunk.sourceType = .audio := by
  intro chunk hc
  simp only [flush] at hc
  split at hc
  · exact h chunk hc
  · rcases List.mem_append.mp hc with hc | hc
    · exact h chunk hc
    · rw [List.mem_singleton.mp hc]

theorem audio_step {targetChars : Int} {s : Filling} {segment : Segment}
    (h : ∀ chunk ∈ s.chunks, chunk.sourceType = .audio) :
    ∀ chunk ∈ (step targetChars s segment).chunks, chunk.sourceType = .audio := by
  unfold step
  split_ifs
  · exact h
  · exact audio_flush h
  · exact h

theorem audio_segmentsToChunks (segments : List Segment) (targetChars : Int) :
    ∀ chunk ∈ segmentsToChunks segments targetChars, chunk.sourceType = .audio := by
  refine audio_flush ?_
  induction segments using List.reverseRecOn with
  | nil => exact List.forall_mem_nil _
  | append_singleton segments segment ih =>
    rw [List.foldl_append]
    exact audio_step ih

end Whisper

section

variable {ε : Type}

/-- The model gives the segments of a file in a language.
mirrors src/adapters/whisper_transcriber.py:137-156 -/
def whisperTranscriberAdapter (model : String → String → Except ε (List Whisper.Segment)) :
    TranscriberAdapter ε where
  transcribe filePath language := (model filePath language).map fun segments =>
    Whisper.segmentsToChunks segments 1500
  audio h := by
    obtain ⟨segments, -, rfl⟩ := map_ok h
    exact Whisper.audio_segmentsToChunks segments 1500

/-- mirrors src/adapters/transcriber.py:30-41 -/
def fakeTranscriberAdapter : TranscriberAdapter ε where
  transcribe filePath language := .ok
    [{ id := "chunk-" ++ filePath ++ "-0", taskId := "", documentId := "", sourceType := .audio
       content := "[fake transcript of " ++ filePath ++ " in " ++ language ++ "]", chunkIndex := 0
       confidence := some (95 / 100) }]
  audio h := by
    obtain rfl := Except.ok.inj h
    simp

/-- mirrors src/adapters/pymupdf_ocr.py:95-101 -/
def pymupdfOcrAdapter {ρ β : Type} (adapter : Pymupdf.PymupdfOcrAdapter ρ β ε) :
    OcrAdapter (Pymupdf.OcrState ρ β ε) ε where
  extract := adapter.run
  extracted := Pymupdf.sourceType_run

/-- mirrors src/adapters/ocr.py:32-49 -/
def fakeOcrAdapter {σ : Type} : OcrAdapter σ ε where
  extract filePath documentType := pure
    [{ id := "chunk-" ++ filePath ++ "-0", taskId := "", documentId := ""
       sourceType := extractedType documentType
       content := "[fake text extracted from " ++ documentType ++ " " ++ filePath ++ "]", chunkIndex := 0
       confidence := some (9 / 10) }]
  extracted h := by
    obtain rfl := Except.ok.inj h
    simp

end

/-! ## Agents -/

/-- mirrors src/agents/transcriber.py:19-27 -/
structure TranscriberAgent (ε : Type) where
  transcriber : TranscriberAdapter ε

/-- mirrors src/agents/ocr.py:19-27 -/
structure OcrAgent (σ ε : Type) where
  ocr : OcrAdapter σ ε

section

variable {ε : Type}

/-- mirrors src/agents/transcriber.py:29-47 -/
def TranscriberAgent.handle (agent : TranscriberAgent ε) (taskId : String) (content : Content) :
    Except ε (Except String Content) :=
  match content.get? "file_path" with
  | some (.str filePath) =>
    match content.get? "document_id" with
    | some (.str documentId) =>
      if documentId = "" then .ok (.error "missing or invalid document_id")
      else
        let language := match content.get? "language" with
          | some (.str language) => language
          | _ => "ru"
        (agent.transcriber.transcribe filePath language).map fun chunks =>
          .ok (transcriberContent taskId documentId language chunks)
    | _ => .ok (.error "missing or invalid document_id")
  | _ => .ok (.error "missing or invalid file_path")

/-- mirrors src/agents/ocr.py:29-47 -/
def OcrAgent.handle {σ : Type} (agent : OcrAgent σ ε) (taskId : String) (content : Content) :
    Exec σ ε (Except String Content) :=
  match content.get? "file_path" with
  | some (.str filePath) =>
    match content.get? "document_id" with
    | some (.str documentId) =>
      if documentId = "" then pure (.error "missing or invalid document_id")
      else
        let refused := pure (.error "document_type must be pdf or image")
        match content.get? "document_type" with
        | some (.str documentType) =>
          if documentType = "pdf" ∨ documentType = "image" then do
            let chunks ← agent.ocr.extract filePath documentType
            return .ok (ocrContent taskId documentId chunks)
          else refused
        | _ => refused
    | _ => pure (.error "missing or invalid document_id")
  | _ => pure (.error "missing or invalid file_path")

/-! ## Contents -/

variable {taskId : String} {content reply : Content}

/-- What F1 informs are stamped chunks of its adapter. -/
theorem TranscriberAgent.informed {agent : TranscriberAgent ε} (h : agent.handle taskId content = .ok (.ok reply)) :
    ∃ filePath documentId language chunks, content.get? "document_id" = some (.str documentId) ∧
      agent.transcriber.transcribe filePath language = .ok chunks ∧
      reply = transcriberContent taskId documentId language chunks := by
  unfold TranscriberAgent.handle at h
  split at h
  case h_2 => cases h
  split at h
  case h_2 => cases h
  rename_i documentId hdoc
  split at h
  · cases h
  · dsimp only at h
    obtain ⟨chunks, hchunks, he⟩ := map_ok h
    exact ⟨_, documentId, _, chunks, hdoc, hchunks, (Except.ok.inj he).symm⟩

/-- What a request to F2 asks for. -/
structure AsksOcr (content : Content) (filePath documentId documentType : String) : Prop where
  path : content.get? "file_path" = some (.str filePath)
  document : content.get? "document_id" = some (.str documentId)
  nonempty : documentId ≠ ""
  type : content.get? "document_type" = some (.str documentType)
  known : documentType = "pdf" ∨ documentType = "image"

/-- Why a request to F2 is refused: the first of its fields that is missing or invalid. -/
inductive RefusesOcr (content : Content) : String → Prop
  | noPath (hpath : ∀ filePath, content.get? "file_path" ≠ some (.str filePath)) :
      RefusesOcr content "missing or invalid file_path"
  | noDocument {filePath : String} (hpath : content.get? "file_path" = some (.str filePath))
      (hdoc : ∀ documentId, content.get? "document_id" = some (.str documentId) → documentId = "") :
      RefusesOcr content "missing or invalid document_id"
  | noType {filePath documentId : String} (hpath : content.get? "file_path" = some (.str filePath))
      (hdoc : content.get? "document_id" = some (.str documentId)) (hne : documentId ≠ "")
      (htype : ∀ documentType, content.get? "document_type" = some (.str documentType) →
        ¬(documentType = "pdf" ∨ documentType = "image")) :
      RefusesOcr content "document_type must be pdf or image"

/-- A request is refused, or the file it names is read. -/
theorem OcrAgent.handle_cases {σ : Type} (agent : OcrAgent σ ε) (taskId : String) (content : Content) :
    (∃ reason, RefusesOcr content reason ∧ agent.handle taskId content = pure (.error reason)) ∨
      ∃ filePath documentId documentType, AsksOcr content filePath documentId documentType ∧
        agent.handle taskId content = do
          let chunks ← agent.ocr.extract filePath documentType
          return .ok (ocrContent taskId documentId chunks) := by
  unfold OcrAgent.handle
  split
  case h_2 _ hpath => exact .inl ⟨_, .noPath hpath, rfl⟩
  rename_i filePath hpath
  split
  case h_2 _ hdoc => exact .inl ⟨_, .noDocument hpath fun d hd => absurd hd (hdoc d), rfl⟩
  rename_i documentId hdoc
  split_ifs with hne
  · refine .inl ⟨_, .noDocument hpath fun d hd => ?_, rfl⟩
    obtain rfl := Value.str.inj (Option.some.inj (hdoc.symm.trans hd))
    exact hne
  dsimp only
  split
  case h_2 _ htype => exact .inl ⟨_, .noType hpath hdoc hne fun t ht => absurd ht (htype t), rfl⟩
  rename_i documentType htype
  split_ifs with hknown
  · exact .inr ⟨filePath, documentId, documentType, ⟨hpath, hdoc, hne, htype, hknown⟩, rfl⟩
  · refine .inl ⟨_, .noType hpath hdoc hne fun t ht => ?_, rfl⟩
    obtain rfl := Value.str.inj (Option.some.inj (htype.symm.trans ht))
    exact hknown

/-- What F2 informs are stamped chunks of its adapter. -/
theorem OcrAgent.informed {σ : Type} {agent : OcrAgent σ ε} {s : σ}
    (h : ((agent.handle taskId content).run s).1 = .ok (.ok reply)) :
    ∃ filePath documentId documentType chunks, content.get? "document_id" = some (.str documentId) ∧
      ((agent.ocr.extract filePath documentType).run s).1 = .ok chunks ∧
      reply = ocrContent taskId documentId chunks := by
  rcases agent.handle_cases taskId content with ⟨reason, -, heq⟩ | ⟨filePath, documentId, documentType, hasks, heq⟩
  · rw [heq] at h
    cases h
  · rw [heq] at h
    obtain ⟨chunks, t, hchunks, he⟩ := Exec.bind_ok (Prod.ext h rfl)
    cases Except.ok.inj (Except.ok.inj (Prod.ext_iff.mp he).1)
    exact ⟨filePath, documentId, documentType, chunks, hasks.document, congrArg Prod.fst hchunks, rfl⟩

end

/-! ## The OCR agent with EasyOCR -/

section

open Pymupdf

variable {ρ β ε : Type} (adapter : PymupdfOcrAdapter ρ β ε)

def pymupdfOcrAgent : OcrAgent (OcrState ρ β ε) ε := ⟨pymupdfOcrAdapter adapter⟩

/-- The adapter after the agent has handled these requests, whatever came of them. -/
def handledOcr (requests : List Message) : OcrState ρ β ε :=
  requests.foldl (fun s request => (((pymupdfOcrAgent adapter).handle request.taskId request.content).run s).2) {}

/-- What becomes of a request, with what was asked of EasyOCR for it. -/
inductive OcrReplied (request : Message) (new : List (Asked ρ β ε)) : Except ε (Except String Content) → Prop
  | refused {reason : String} (h : RefusesOcr request.content reason) (hnone : new = []) :
      OcrReplied request new (.ok (.error reason))
  | informed {filePath documentId documentType : String} {chunks : List TextChunk}
      (hasks : AsksOcr request.content filePath documentId documentType)
      (h : Extracts adapter filePath documentType (recognitions new) chunks) :
      OcrReplied request new (.ok (.ok (ocrContent request.taskId documentId chunks)))
  | raised {filePath documentId documentType : String} {e : ε}
      (hasks : AsksOcr request.content filePath documentId documentType)
      (h : Stops adapter filePath documentType new e) : OcrReplied request new (.error e)

theorem records_ocr (request : Message) {s : OcrState ρ β ε} (hs : Kept s) :
    Exec.Records OcrState.asked Kept ((pymupdfOcrAgent adapter).handle request.taskId request.content) s
      (fun reply new => OcrReplied adapter request new (.ok reply))
      fun e new => OcrReplied adapter request new (.error e) := by
  rcases (pymupdfOcrAgent adapter).handle_cases request.taskId request.content with
    ⟨reason, hrefuses, heq⟩ | ⟨filePath, documentId, documentType, hasks, heq⟩
  · rw [heq]
    exact Exec.records_pure hs (.refused hrefuses rfl)
  · rw [heq]
    refine (records_run adapter filePath documentType hs).bind ?_ fun e new h => .raised hasks h
    rintro chunks new t ht - hextracts
    refine Exec.records_pure ht ?_
    rw [List.append_nil]
    exact .informed hasks hextracts

theorem handledOcr_concat (earlier : List Message) (request : Message) :
    handledOcr adapter (earlier ++ [request]) =
      (((pymupdfOcrAgent adapter).handle request.taskId request.content).run (handledOcr adapter earlier)).2 := by
  rw [handledOcr, List.foldl_append]
  rfl

theorem kept_handledOcr (requests : List Message) : Kept (handledOcr adapter requests) := by
  induction requests using List.reverseRecOn with
  | nil => exact .init
  | append_singleton earlier request ih =>
    rw [handledOcr_concat]
    exact (records_ocr adapter request ih).1

/-- **One request to F2**, after any others. EasyOCR is asked about the image, or about the pages with
too short a text layer, in order and until one is not read; over all requests one reader is built at
most, and it is the one that recognises. -/
theorem ocr_replied (earlier : List Message) (request : Message) : ∃ new,
    (handledOcr adapter (earlier ++ [request])).asked = (handledOcr adapter earlier).asked ++ new ∧
      OcrReplied adapter request new
        (((pymupdfOcrAgent adapter).handle request.taskId request.content).run (handledOcr adapter earlier)).1 ∧
      ((handledOcr adapter (earlier ++ [request])).asked.filterMap Asked.built).length ≤ 1 ∧
      ∀ reader image answer, .readtext reader image answer ∈ (handledOcr adapter (earlier ++ [request])).asked →
        (handledOcr adapter (earlier ++ [request])).asked.filterMap Asked.built = [reader] := by
  have hkept := kept_handledOcr adapter (earlier ++ [request])
  obtain ⟨-, new, hnew, hok, herr⟩ := records_ocr adapter request (kept_handledOcr adapter earlier)
  refine ⟨new, by rw [handledOcr_concat, hnew], ?_, ?_, fun reader image answer hx => ?_⟩
  · generalize (((pymupdfOcrAgent adapter).handle request.taskId request.content).run
      (handledOcr adapter earlier)).1 = r at hok herr
    cases r with
    | ok reply => exact hok reply rfl
    | error e => exact herr e rfl
  · rw [hkept.built]
    exact Option.length_toList_le
  · rw [hkept.built, hkept.used reader image answer hx]
    rfl

end

end MasResearch.L2
