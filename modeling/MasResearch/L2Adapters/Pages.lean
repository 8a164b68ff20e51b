import MasResearch.Core.Join
import MasResearch.Core.Transcript
import MasResearch.L2Store.Chunks

/-!
# Pages to text chunks (`adapters/pymupdf_ocr.py`)

A PDF has a text layer, page by page; a page with too little of it is rendered and recognised.
An image is recognised as one page. The pages that say something become chunks.

The PDF library and the file system are parameters, which may raise. What EasyOCR answers may
depend on all it was asked before, and its reader is built when it is first needed.

* `pagesToChunks_eq`: the chunks are the pages that say something, numbered in order.
* `Kept`: at most one reader was ever built, and whatever was recognised was recognised by it.
* `records_run`: what one file gives, what is recognised for it, and what stops it.
-/
namespace MasResearch.L2.Pymupdf

open MasResearch.L1

/-! ## Chunks -/

/-- The chunk of a page. -/
def pageChunk (sourceType : SourceType) (index : Nat) (text : Text) : TextChunk where
  id := numbered "chunk" index
  taskId := ""
  documentId := ""
  sourceType := sourceType
  content := String.ofList text
  chunkIndex := index

/-- One round of the loop.
mirrors src/adapters/pymupdf_ocr.py:27-41 -/
def addPage (sourceType : SourceType) (chunks : List TextChunk) (pageText : Text) : List TextChunk :=
  if strip pageText = [] then chunks else chunks ++ [pageChunk sourceType chunks.length (strip pageText)]

/-- mirrors src/adapters/pymupdf_ocr.py:24-42 -/
def pagesToChunks (sourceType : SourceType) (pages : List Text) : List TextChunk :=
  pages.foldl (addPage sourceType) []

/-! ## The adapter -/

/-- A page of a document: its text layer and its rendering, each of which may raise. -/
structure PdfPage (β ε : Type) where
  getText : Except ε Text
  png : Except ε β

/-- What is asked of EasyOCR, and what came of it. -/
inductive Asked (ρ β ε : Type) where
  | build (answer : Except ε ρ)
  | readtext (reader : ρ) (image : β) (answer : Except ε (List Text))

/-- `self._reader`, and what EasyOCR was asked so far. -/
structure OcrState (ρ β ε : Type) where
  reader : Option ρ := none
  asked : List (Asked ρ β ε) := []

/-- mirrors src/adapters/pymupdf_ocr.py:45-51 -/
structure PymupdfOcrAdapter (ρ β ε : Type) where
  languages : List String
  minChars : Int := 20
  openPdf : String → Except ε (List (PdfPage β ε))
  readBytes : String → Except ε β
  buildReader : List (Asked ρ β ε) → List String → Except ε ρ
  readtext : List (Asked ρ β ε) → ρ → β → Except ε (List Text)

section

variable {ρ β ε : Type}

def OcrState.ask (s : OcrState ρ β ε) (x : Asked ρ β ε) : OcrState ρ β ε := { s with asked := s.asked ++ [x] }

@[simp] theorem OcrState.asked_ask (s : OcrState ρ β ε) (x : Asked ρ β ε) : (s.ask x).asked = s.asked ++ [x] := rfl

@[simp] theorem OcrState.reader_ask (s : OcrState ρ β ε) (x : Asked ρ β ε) : (s.ask x).reader = s.reader := rfl

abbrev OcrM (ρ β ε : Type) : Type → Type := Exec (OcrState ρ β ε) ε

/-- One call of EasyOCR. -/
def call {α : Type} (answer : List (Asked ρ β ε) → Except ε α) (asked : Except ε α → Asked ρ β ε) : OcrM ρ β ε α := do
  let s ← Exec.get
  Exec.modify (·.ask (asked (answer s.asked)))
  Exec.lift (answer s.asked)

@[simp] theorem run_call {α : Type} (answer : List (Asked ρ β ε) → Except ε α) (asked : Except ε α → Asked ρ β ε)
    (s : OcrState ρ β ε) : (call answer asked).run s = (answer s.asked, s.ask (asked (answer s.asked))) := rfl

namespace PymupdfOcrAdapter

variable (adapter : PymupdfOcrAdapter ρ β ε)

/-- The import and the check for a GPU are part of what builds the reader.
mirrors src/adapters/pymupdf_ocr.py:63-68 -/
def ensureReader : OcrM ρ β ε ρ := do
  let s ← Exec.get
  match s.reader with
  | some reader => return reader
  | none =>
    let reader ← call (adapter.buildReader · adapter.languages) .build
    Exec.modify fun s => { s with reader := some reader }
    return reader

/-- mirrors src/adapters/pymupdf_ocr.py:70-72 -/
def ocrImageBytes (imageBytes : β) : OcrM ρ β ε Text := do
  let reader ← adapter.ensureReader
  let result ← call (adapter.readtext · reader imageBytes) (.readtext reader imageBytes)
  return join ['\n'] result

/-- The body of the loop over the pages.
mirrors src/adapters/pymupdf_ocr.py:80-84 -/
def readPage (page : PdfPage β ε) : OcrM ρ β ε Text := do
  let text ← Exec.lift page.getText
  if (strip text).length < adapter.minChars then do
    let pixmap ← Exec.lift page.png
    let text ← adapter.ocrImageBytes pixmap
    return strip text
  else return strip text

/-- mirrors src/adapters/pymupdf_ocr.py:74-85 -/
def runPdf (filePath : String) : OcrM ρ β ε (List Text) := do
  let document ← Exec.lift (adapter.openPdf filePath)
  Exec.collect document adapter.readPage

/-- mirrors src/adapters/pymupdf_ocr.py:87-88 -/
def runImage (filePath : String) : OcrM ρ β ε (List Text) := do
  let imageBytes ← Exec.lift (adapter.readBytes filePath)
  let text ← adapter.ocrImageBytes imageBytes
  return [text]

/-- mirrors src/adapters/pymupdf_ocr.py:90-93 -/
def run (filePath documentType : String) : OcrM ρ β ε (List TextChunk) :=
  if documentType = "pdf" then do
    let pages ← adapter.runPdf filePath
    return pagesToChunks .pdfExtracted pages
  else do
    let pages ← adapter.runImage filePath
    return pagesToChunks .image pages

end PymupdfOcrAdapter

end

/-! ## Pages and chunks -/

/-- What the pages say. -/
def spoken (pages : List Text) : List Text := (pages.map strip).filter (· ≠ [])

theorem spoken_concat (pages : List Text) (pageText : Text) :
    spoken (pages ++ [pageText]) = if strip pageText = [] then spoken pages else spoken pages ++ [strip pageText] := by
  rw [spoken, List.map_append, List.filter_append]
  by_cases h : strip pageText = [] <;> simp [h, spoken]

theorem pagesToChunks_eq (sourceType : SourceType) (pages : List Text) :
    pagesToChunks sourceType pages = (spoken pages).mapIdx (pageChunk sourceType) := by
  induction pages using List.reverseRecOn with
  | nil => rfl
  | append_singleton pages pageText ih =>
    rw [pagesToChunks, List.foldl_append, spoken_concat]
    rw [pagesToChunks] at ih
    simp only [List.foldl_cons, List.foldl_nil, ih, addPage, List.length_mapIdx]
    split_ifs
    · rfl
    · rw [List.mapIdx_append]
      simp

theorem sourceType_pagesToChunks {sourceType : SourceType} {pages : List Text} :
    ∀ chunk ∈ pagesToChunks sourceType pages, chunk.sourceType = sourceType := by
  intro chunk hc
  rw [pagesToChunks_eq, List.mem_mapIdx] at hc
  obtain ⟨i, hi, rfl⟩ := hc
  rfl

/-- A page that is blank leaves no gap in the numbers. -/
example : (pagesToChunks .pdfExtracted [" a ".toList, " ".toList, "b\n".toList]).map (fun c => (c.id, c.content)) =
    [("chunk-0", "a"), ("chunk-1", "b")] := by decide

/-! ## What is asked of EasyOCR -/

section

variable {ρ β ε : Type}

/-- The reader that was built. -/
def Asked.built : Asked ρ β ε → Option ρ
  | .build (.ok reader) => some reader
  | _ => none

/-- The image that was recognised, and the text in it. -/
def Asked.recognised : Asked ρ β ε → Option (β × Text)
  | .readtext _ image (.ok lines) => some (image, join ['\n'] lines)
  | _ => none

/-- What was recognised, in order. -/
def recognitions (asked : List (Asked ρ β ε)) : List (β × Text) := asked.filterMap Asked.recognised

theorem recognitions_append (asked more : List (Asked ρ β ε)) :
    recognitions (asked ++ more) = recognitions asked ++ recognitions more :=
  List.filterMap_append

/-- The last that was asked raised: there is no reader, or it could not read the image. -/
def Unrecognised (image : β) (asked : List (Asked ρ β ε)) (e : ε) : Prop :=
  ∃ x, asked.getLast? = some x ∧ (x = .build (.error e) ∨ ∃ reader, x = .readtext reader image (.error e))

theorem Unrecognised.append {image : β} {more : List (Asked ρ β ε)} {e : ε} (h : Unrecognised image more e)
    (asked : List (Asked ρ β ε)) : Unrecognised image (asked ++ more) e := by
  obtain ⟨x, hx, hraised⟩ := h
  exact ⟨x, by rw [List.getLast?_append, hx, Option.some_or], hraised⟩

/-- **The reader.** The one that is kept is the only one ever built, and the only one ever used. -/
structure Kept (s : OcrState ρ β ε) : Prop where
  built : s.asked.filterMap Asked.built = s.reader.toList
  used : ∀ reader image answer, .readtext reader image answer ∈ s.asked → s.reader = some reader

namespace Kept

variable {s : OcrState ρ β ε} {reader : ρ}

theorem init : Kept ({} : OcrState ρ β ε) := ⟨rfl, by rintro _ _ _ ⟨⟩⟩

theorem unbuilt (h : Kept s) (e : ε) : Kept (s.ask (.build (.error e))) where
  built := by simp [h.built, Asked.built]
  used reader image answer hx := h.used reader image answer (by simpa using hx)

theorem build (h : Kept s) (hnone : s.reader = none) (reader : ρ) :
    Kept { s.ask (.build (.ok reader)) with reader := some reader } where
  built := by simp [h.built, hnone, Asked.built]
  used reader' image answer hx := by
    have hused := h.used reader' image answer (by simpa using hx)
    rw [hnone] at hused
    cases hused

theorem readtext (h : Kept s) (hsome : s.reader = some reader) (image : β) (answer : Except ε (List Text)) :
    Kept (s.ask (.readtext reader image answer)) where
  built := by simp [h.built, Asked.built]
  used reader' image' answer' hx := by
    rcases List.mem_append.mp hx with hx | hx
    · exact h.used _ _ _ hx
    · cases List.mem_singleton.mp hx
      exact hsome

end Kept

/-! ## What is read -/

/-- What is recognised for a page, and what the page is read as. -/
inductive ReadsAs (minChars : Int) (page : PdfPage β ε) : List (β × Text) → Text → Prop
  | layer {text : Text} (htext : page.getText = .ok text) (hlong : minChars ≤ (strip text).length) :
      ReadsAs minChars page [] (strip text)
  | recognised {text seen : Text} {image : β} (htext : page.getText = .ok text)
      (hshort : (strip text).length < minChars) (hpng : page.png = .ok image) :
      ReadsAs minChars page [(image, seen)] (strip seen)

/-- What is recognised for the pages in order, and what they are read as. -/
inductive Reads (minChars : Int) : List (PdfPage β ε) → List (β × Text) → List Text → Prop
  | nil : Reads minChars [] [] []
  | snoc {pages : List (PdfPage β ε)} {page : PdfPage β ε} {seen more : List (β × Text)} {texts : List Text}
      {text : Text} (h : Reads minChars pages seen texts) (hpage : ReadsAs minChars page more text) :
      Reads minChars (pages ++ [page]) (seen ++ more) (texts ++ [text])

/-- The page that is not read, after what was asked of EasyOCR. -/
def Fails (minChars : Int) (page : PdfPage β ε) (asked : List (Asked ρ β ε)) (e : ε) : Prop :=
  page.getText = .error e ∨ ∃ text, page.getText = .ok text ∧ (strip text).length < minChars ∧
    (page.png = .error e ∨ ∃ image, page.png = .ok image ∧ Unrecognised image asked e)

theorem Fails.append {minChars : Int} {page : PdfPage β ε} {more : List (Asked ρ β ε)} {e : ε}
    (h : Fails minChars page more e) (asked : List (Asked ρ β ε)) : Fails minChars page (asked ++ more) e :=
  h.imp_right fun ⟨text, htext, hshort, h⟩ =>
    ⟨text, htext, hshort, h.imp_right fun ⟨image, hpng, h⟩ => ⟨image, hpng, h.append asked⟩⟩

variable (adapter : PymupdfOcrAdapter ρ β ε) (filePath documentType : String)

/-- What is recognised for a file, and its chunks. -/
inductive Extracts (seen : List (β × Text)) : List TextChunk → Prop
  | pdf {document : List (PdfPage β ε)} {texts : List Text} (htype : documentType = "pdf")
      (hopen : adapter.openPdf filePath = .ok document) (hreads : Reads adapter.minChars document seen texts) :
      Extracts seen ((spoken texts).mapIdx (pageChunk .pdfExtracted))
  | image {image : β} {text : Text} (htype : documentType ≠ "pdf") (hbytes : adapter.readBytes filePath = .ok image)
      (hseen : seen = [(image, text)]) : Extracts seen ((spoken [text]).mapIdx (pageChunk .image))

/-- What stops the reading of a file, after what was asked of EasyOCR: the file, or the first page
that is not read. -/
inductive Stops (asked : List (Asked ρ β ε)) (e : ε) : Prop
  | openPdf (htype : documentType = "pdf") (hopen : adapter.openPdf filePath = .error e) (hnone : asked = [])
  | page {read rest : List (PdfPage β ε)} {page : PdfPage β ε} {texts : List Text} (htype : documentType = "pdf")
      (hopen : adapter.openPdf filePath = .ok (read ++ page :: rest))
      (hreads : Reads adapter.minChars read (recognitions asked) texts) (hfails : Fails adapter.minChars page asked e)
  | readBytes (htype : documentType ≠ "pdf") (hbytes : adapter.readBytes filePath = .error e) (hnone : asked = [])
  | image {image : β} (htype : documentType ≠ "pdf") (hbytes : adapter.readBytes filePath = .ok image)
      (hseen : recognitions asked = []) (hfails : Unrecognised image asked e)

variable {adapter filePath documentType} {s : OcrState ρ β ε}

theorem records_ensureReader (hs : Kept s) :
    Exec.Records OcrState.asked Kept adapter.ensureReader s
      (fun reader new => (s.asked ++ new).filterMap Asked.built = [reader] ∧ recognitions new = [])
      fun e new => new = [.build (.error e)] := by
  cases hr : s.reader with
  | some reader =>
    have hrun : adapter.ensureReader.run s = (.ok reader, s) := by
      simp [PymupdfOcrAdapter.ensureReader, Exec.run_bind, hr]
    rw [Exec.Records, hrun]
    refine ⟨hs, [], (List.append_nil _).symm, ?_, by rintro _ ⟨⟩⟩
    rintro _ ⟨⟩
    exact ⟨by rw [List.append_nil, hs.built, hr]; rfl, rfl⟩
  | none =>
    cases hb : adapter.buildReader s.asked adapter.languages with
    | error e =>
      have hrun : adapter.ensureReader.run s = (.error e, s.ask (.build (.error e))) := by
        simp [PymupdfOcrAdapter.ensureReader, Exec.run_bind, hr, hb]
      rw [Exec.Records, hrun]
      refine ⟨hs.unbuilt e, _, rfl, by rintro _ ⟨⟩, ?_⟩
      rintro _ ⟨⟩
      rfl
    | ok reader =>
      have hrun : adapter.ensureReader.run s =
          (.ok reader, { s.ask (.build (.ok reader)) with reader := some reader }) := by
        simp [PymupdfOcrAdapter.ensureReader, Exec.run_bind, hr, hb]
      rw [Exec.Records, hrun]
      refine ⟨hs.build hr reader, _, rfl, ?_, by rintro _ ⟨⟩⟩
      rintro _ ⟨⟩
      exact ⟨by rw [List.filterMap_append, hs.built, hr]; rfl, rfl⟩

/-- One image. -/
theorem records_ocrImageBytes (image : β) (hs : Kept s) :
    Exec.Records OcrState.asked Kept (adapter.ocrImageBytes image) s
      (fun text new => recognitions new = [(image, text)])
      fun e new => recognitions new = [] ∧ Unrecognised image new e := by
  refine (records_ensureReader hs).bind ?_ ?_
  · rintro reader new t ht hview ⟨hbuilt, hnone⟩
    have hr : t.reader = some reader := by
      rw [← hview, ht.built] at hbuilt
      exact Option.toList_eq_singleton_iff.mp hbuilt
    cases h : adapter.readtext t.asked reader image with
    | error e =>
      have hrun : (call (adapter.readtext · reader image) (.readtext reader image)).run t =
          (.error e, t.ask (.readtext reader image (.error e))) := by rw [run_call, h]
      rw [Exec.Records, Exec.run_bind_error hrun]
      refine ⟨ht.readtext hr image _, _, rfl, by rintro _ ⟨⟩, ?_⟩
      rintro _ ⟨⟩
      rw [recognitions_append, hnone]
      exact ⟨rfl, .append ⟨_, rfl, .inr ⟨reader, rfl⟩⟩ new⟩
    | ok lines =>
      have hrun : (call (adapter.readtext · reader image) (.readtext reader image)).run t =
          (.ok lines, t.ask (.readtext reader image (.ok lines))) := by rw [run_call, h]
      rw [Exec.Records, Exec.run_bind_ok hrun]
      refine ⟨ht.readtext hr image _, _, rfl, ?_, by rintro _ ⟨⟩⟩
      rintro _ ⟨⟩
      rw [recognitions_append, hnone]
      rfl
  · rintro e _ rfl
    exact ⟨rfl, _, rfl, .inl rfl⟩

/-- One page. -/
theorem records_readPage (page : PdfPage β ε) (hs : Kept s) :
    Exec.Records OcrState.asked Kept (adapter.readPage page) s
      (fun text new => ReadsAs adapter.minChars page (recognitions new) text)
      fun e new => recognitions new = [] ∧ Fails adapter.minChars page new e := by
  refine (Exec.records_lift page.getText hs).bind ?_ ?_
  · rintro text _ t ht - ⟨rfl, htext⟩
    split_ifs with hshort
    · refine (Exec.records_lift page.png ht).bind ?_ ?_
      · rintro image _ u hu - ⟨rfl, hpng⟩
        refine (records_ocrImageBytes image hu).bind ?_ ?_
        · rintro seen new v hv - hseen
          refine Exec.records_pure hv ?_
          simp only [List.nil_append, List.append_nil, hseen]
          exact .recognised htext hshort hpng
        · rintro e new ⟨hnone, hun⟩
          exact ⟨hnone, .inr ⟨text, htext, hshort, .inr ⟨image, hpng, hun⟩⟩⟩
      · rintro e _ ⟨rfl, hpng⟩
        exact ⟨rfl, .inr ⟨text, htext, hshort, .inl hpng⟩⟩
    · exact Exec.records_pure ht (.layer htext (not_lt.mp hshort))
  · rintro e _ ⟨rfl, htext⟩
    exact ⟨rfl, .inl htext⟩

theorem records_runPdf (htype : documentType = "pdf") (hs : Kept s) :
    Exec.Records OcrState.asked Kept (adapter.runPdf filePath) s
      (fun texts new => ∃ document, adapter.openPdf filePath = .ok document ∧
        Reads adapter.minChars document (recognitions new) texts)
      fun e new => Stops adapter filePath documentType new e := by
  refine (Exec.records_lift _ hs).bind ?_ ?_
  · rintro document _ t ht - ⟨rfl, hopen⟩
    refine (Exec.records_collect (J := fun done texts new => Reads adapter.minChars done (recognitions new) texts)
      (E := fun e new => Stops adapter filePath documentType new e) ?_ ht .nil).mono
      (fun texts new hreads => ⟨document, hopen, hreads⟩) fun e new h => h
    rintro read page rest texts new u rfl hu hreads
    refine (records_readPage page hu).mono (fun text more hpage => ?_) fun e more hfails => ?_
    · rw [recognitions_append]
      exact hreads.snoc hpage
    · have hseen : recognitions (new ++ more) = recognitions new := by
        rw [recognitions_append, hfails.1, List.append_nil]
      exact .page htype hopen (hseen ▸ hreads) (hfails.2.append new)
  · rintro e _ ⟨rfl, hopen⟩
    exact .openPdf htype hopen rfl

theorem records_runImage (htype : documentType ≠ "pdf") (hs : Kept s) :
    Exec.Records OcrState.asked Kept (adapter.runImage filePath) s
      (fun texts new => ∃ image text, adapter.readBytes filePath = .ok image ∧ texts = [text] ∧
        recognitions new = [(image, text)])
      fun e new => Stops adapter filePath documentType new e := by
  refine (Exec.records_lift _ hs).bind ?_ ?_
  · rintro image _ t ht - ⟨rfl, hbytes⟩
    refine (records_ocrImageBytes image ht).bind ?_ ?_
    · rintro text new u hu - hseen
      refine Exec.records_pure hu ⟨image, text, hbytes, rfl, ?_⟩
      rwa [List.append_nil]
    · rintro e new ⟨hnone, hun⟩
      exact .image htype hbytes hnone hun
  · rintro e _ ⟨rfl, hbytes⟩
    exact .readBytes htype hbytes rfl

/-- **One file.** -/
theorem records_run (adapter : PymupdfOcrAdapter ρ β ε) (filePath documentType : String) (hs : Kept s) :
    Exec.Records OcrState.asked Kept (adapter.run filePath documentType) s
      (fun chunks new => Extracts adapter filePath documentType (recognitions new) chunks)
      fun e new => Stops adapter filePath documentType new e := by
  unfold PymupdfOcrAdapter.run
  split_ifs with htype
  · refine (records_runPdf htype hs).bind ?_ fun e new h => h
    rintro texts new t ht - ⟨document, hopen, hreads⟩
    refine Exec.records_pure ht ?_
    rw [pagesToChunks_eq, List.append_nil]
    exact .pdf htype hopen hreads
  · refine (records_runImage htype hs).bind ?_ fun e new h => h
    rintro _ new t ht - ⟨image, text, hbytes, rfl, hseen⟩
    refine Exec.records_pure ht ?_
    rw [pagesToChunks_eq, List.append_nil]
    exact .image htype hbytes hseen

/-- The chunks are of the type of the file. -/
theorem sourceType_run {chunks : List TextChunk} (h : ((adapter.run filePath documentType).run s).1 = .ok chunks) :
    ∀ chunk ∈ chunks, chunk.sourceType = if documentType = "pdf" then .pdfExtracted else .image := by
  have hrun : (adapter.run filePath documentType).run s = (.ok chunks, _) := Prod.ext h rfl
  unfold PymupdfOcrAdapter.run at hrun
  split_ifs at hrun with htype
  · obtain ⟨pages, t, -, hpages⟩ := Exec.bind_ok hrun
    obtain rfl := Except.ok.inj (Prod.ext_iff.mp hpages).1
    rw [if_pos htype]
    exact sourceType_pagesToChunks
  · obtain ⟨pages, t, -, hpages⟩ := Exec.bind_ok hrun
    obtain rfl := Except.ok.inj (Prod.ext_iff.mp hpages).1
    rw [if_neg htype]
    exact sourceType_pagesToChunks

end

end MasResearch.L2.Pymupdf
