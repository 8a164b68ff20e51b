import MasResearch.Bugs.SplitTitles
import MasResearch.L2Agents.Papers
import MasResearch.L2Agents.Recommender

/-!
# From the search API to the citations (`corpus_builder/build.py`, `agents/recommender.py`)

The builder fetches papers, embeds them and writes two files; the recommender loads them and
cites. The one part is run by hand before the other, so all that joins them is the files.

* `loadCorpus_build`: what is loaded, if anything is, are the papers with their own rows.
* `citations_fetched`: each citation is of a work that the API answered a query with, and is
  scored by the abstract of that work.
-/
namespace MasResearch.L3

open MasResearch.L1 MasResearch.L2 Bugs.SplitTitles

section

variable {ρ σ ε : Type}

/-! ## The files -/

/-- What is embedded for each paper. -/
def passages (papers : List Paper) : List Text := papers.map fun p => "passage: ".toList ++ p.abstract

section

variable {encode : List Text → List ρ} {half : ρ → σ} {depth : Nat} {display : Json → Text} {papers : List Paper}

theorem loadCorpus_printable (hp : ∀ p ∈ papers, Printable p) :
    loadCorpus depth display (build encode half papers) =
      .ok (papers.zipWith entryOf ((encode (passages papers)).map half)) := by
  by_cases hne : papers = []
  · rw [hne]
    rfl
  · rw [build, if_neg hne, loadCorpus, universalNewlines_jsonl, splitlines_jsonl hp]
    exact mapM_entries papers _

/-- Whatever separators the titles have. -/
theorem loadCorpus_build (hrows : ∀ texts, (encode texts).length = texts.length) {loaded : List (L2.CorpusEntry σ)}
    (h : loadCorpus depth display (build encode half papers) = .ok loaded) :
    loaded = papers.zipWith entryOf ((encode (passages papers)).map half) := by
  by_cases hp : ∀ p ∈ papers, Printable p
  · rw [loadCorpus_printable hp] at h
    exact (Except.ok.inj h).symm
  · obtain ⟨before, p, after, rfl, hb, hbroken⟩ := first_broken hp
    obtain ⟨a, rest, ha, hlines⟩ := splitlines_cut hb hbroken after
    have hne : before ++ p :: after ≠ [] := by simp
    rw [build, if_neg hne, loadCorpus, universalNewlines_jsonl, hlines,
      mapM_cut (ha depth) rest before _ (by simp [hrows])] at h
    cases h

end

/-- An entry whose fields are what they are annotated as. -/
structure Holds (loaded : L2.CorpusEntry σ) (entry : Recommender.CorpusEntry σ) : Prop where
  title : entry.title.toList = loaded.title
  authors : optionalText (entry.authors.map String.toList) = loaded.authors
  year : ∃ year, optionalInt year = loaded.year ∧ entry.year = year.map (·.1)
  url : optionalText (entry.url.map String.toList) = loaded.url
  embedding : entry.embedding = loaded.embedding

theorem titles_holds {loaded : List (L2.CorpusEntry σ)} {corpus : List (Recommender.CorpusEntry σ)}
    (h : List.Forall₂ Holds loaded corpus) : corpus.map (fun entry => entry.title.toList) = loaded.map (·.title) := by
  induction h with
  | nil => rfl
  | cons hentry _ ih => rw [List.map_cons, List.map_cons, hentry.title, ih]

theorem titles_entries {papers : List Paper} {rows : List σ} (h : papers.length ≤ rows.length) :
    (papers.zipWith entryOf rows).map (·.title) = papers.map Paper.title := by
  rw [← List.map_uncurry_zip_eq_zipWith, List.map_map,
    show ((fun loaded : L2.CorpusEntry σ => loaded.title) ∘ fun p => Function.uncurry entryOf p) =
      Paper.title ∘ Prod.fst from rfl, ← List.map_map, List.map_fst_zip h]

theorem optionalText_inj {o o' : Option Text} (h : optionalText o = optionalText o') : o = o' := by
  cases o <;> cases o' <;> simp_all [optionalText]

theorem optionalInt_inj {o o' : Option Json.Integer} (h : optionalInt o = optionalInt o') : o = o' := by
  cases o <;> cases o' <;> simp_all [optionalInt]

/-! ## Citations -/

/-- The citation is of the paper. -/
structure OfPaper (paper : Paper) (c : Citation) : Prop where
  title : c.title.toList = paper.title
  authors : c.authors.map String.toList = paper.authors
  year : c.year = paper.year.map (·.1)
  url : c.url.map String.toList = paper.url

theorem ofPaper_citationOf {paper : Paper} {row : σ} {entry : Recommender.CorpusEntry σ}
    (h : Holds (entryOf paper row) entry) (score : ℚ) : OfPaper paper (Recommender.citationOf entry score) := by
  obtain ⟨year, hloaded, hyear⟩ := h.year
  exact ⟨h.title, optionalText_inj h.authors, hyear.trans (by rw [optionalInt_inj hloaded]), optionalText_inj h.url⟩

/-- A query was answered with a work that became the paper. -/
def Fetched (queries : List Text) (new : List (Exchange Text Response SearchError)) (paper : Paper) : Prop :=
  ∃ x ∈ new, x.prompt ∈ queries ∧ ∃ response works work, x.answer = .ok response ∧ response.works = .ok works ∧
    work ∈ works ∧ paperFrom work = some paper

theorem exists_exchange {queries : List Text} {results : List (List Work)}
    {new : List (Exchange Text Response SearchError)} (h : Answered queries results new) {works : List Work}
    (hw : works ∈ results) :
    ∃ x ∈ new, x.prompt ∈ queries ∧ ∃ response, x.answer = .ok response ∧ response.works = .ok works := by
  induction h with
  | nil => cases hw
  | @concat queries results new query last more _ hfound ih =>
    rcases List.mem_append.mp hw with hw | hw
    · obtain ⟨x, hx, hprompt, hanswer⟩ := ih hw
      exact ⟨x, List.mem_append_left _ hx, List.mem_append_left _ hprompt, hanswer⟩
    · rw [List.mem_singleton] at hw
      obtain ⟨refused, response, rfl, -, -, -, hworks⟩ := hfound.split
      exact ⟨⟨query, .ok response⟩, by simp, by simp, response, rfl, hw ▸ hworks⟩

theorem fetched_of_answered {queries : List Text} {results : List (List Work)}
    {new : List (Exchange Text Response SearchError)} (h : Answered queries results new) {paper : Paper}
    (hp : paper ∈ firsts Paper.title (results.flatten.filterMap paperFrom)) : Fetched queries new paper := by
  obtain ⟨work, hwork, hpaper⟩ := List.mem_filterMap.mp ((firsts_sublist _ _).subset hp)
  obtain ⟨works, hworks, hin⟩ := List.mem_flatten.mp hwork
  obtain ⟨x, hx, hprompt, response, hanswer, hok⟩ := exists_exchange h hworks
  exact ⟨x, hx, hprompt, response, works, work, hanswer, hok, hin, hpaper⟩

/-- **Where citations come from.** Whatever the API answers and whatever is written in the titles:
if the papers are fetched and their files can be loaded, what the recommender then cites are works
that the API answered one of the queries with, each once, scored by their own abstracts. -/
theorem citations_fetched (api : Api) {queries : List Text} {log : List (Exchange Text Response SearchError)}
    {papers : List Paper} (hfetch : ((fetch api queries).run log).1 = .ok papers) {encode : List Text → List ρ}
    (hrows : ∀ texts, (encode texts).length = texts.length) {half : ρ → σ} {depth : Nat}
    {display : Json → Text} {loaded : List (L2.CorpusEntry σ)}
    (hload : loadCorpus depth display (build encode half papers) = .ok loaded)
    {agent : Recommender.RecommenderAgent σ ε} (hcorpus : List.Forall₂ Holds loaded agent.corpus)
    {content reply : Content} (hreply : agent.handle content = .ok (.ok reply)) :
    ∃ new citations queryVector, ((fetch api queries).run log).2 = log ++ new ∧
      reply = recommenderContent citations ∧ (citations.map (·.title)).Nodup ∧
      agent.encode (String.ofList (agent.query content)) = .ok queryVector ∧
      ∀ c ∈ citations, ∃ paper row, (paper, row) ∈ papers.zip (encode (passages papers)) ∧
        Fetched queries new paper ∧ OfPaper paper c ∧
        c.relevanceScore = roundTo 4 (agent.cosine queryVector (half row)) := by
  obtain ⟨new, hnew, hok, -⟩ := logs_fetch api queries log
  obtain ⟨results, hanswered, hpapers⟩ := hok papers hfetch
  have hloaded := loadCorpus_build hrows hload
  have hreplied := Recommender.replied_handle agent content
  rw [hreply] at hreplied
  cases hreplied with
  | @cited queryVector citations _ hv _ htop hcites =>
    refine ⟨new, citations, queryVector, hnew, rfl, ?_, hv, fun c hc => ?_⟩
    · have htitles : ((agent.corpus.map (·.title)).map String.toList).Nodup := by
        rw [List.map_map]
        show (agent.corpus.map fun entry => entry.title.toList).Nodup
        rw [titles_holds hcorpus, hloaded, titles_entries (by simp [hrows, passages]), hpapers]
        exact nodup_firsts _ _
      exact htop.titles htitles.of_map
    · obtain ⟨entry, hentry, rfl⟩ := hcites.cited c hc
      obtain ⟨l, hl, hholds⟩ := exists_mem_of_forall₂ hcorpus.flip (List.mem_of_mem_filter hentry)
      rw [hloaded, ← List.map_uncurry_zip_eq_zipWith, List.zip_map_right, List.map_map] at hl
      obtain ⟨⟨paper, row⟩, hin, rfl⟩ := List.mem_map.mp hl
      have hpaper : paper ∈ papers := (List.of_mem_zip hin).1
      refine ⟨paper, row, hin, fetched_of_answered hanswered (hpapers ▸ hpaper), ofPaper_citationOf hholds _, ?_⟩
      show roundTo 4 (agent.cosine queryVector entry.embedding) = _
      rw [hholds.embedding]
      rfl

end

/-- The paper of the one work there is. -/
def graphsPaper : Paper := { title := "Graphs".toList, abstract := "graphs".toList }

/-- The API is overloaded at first, and then has one work. -/
def busyOnce : Api := fun log _ =>
  .ok (if log.isEmpty then ⟨429, .error (.httpStatusError 429), .ok []⟩
    else ⟨200, .ok (), .ok (found "Graphs".toList).flatten⟩)

/-- A recommender that has loaded the paper, and finds everything alike. -/
def librarian : Recommender.RecommenderAgent (List ℚ) Unit where
  corpus := [⟨"Graphs", none, none, none, [15]⟩]
  encode _ := .ok []
  dimension _ := 1
  cosine _ _ := 1
  str v := match v with
    | .str s => s
    | _ => ""

def aboutGraphs : Content := [("terms", .list [.dict [("term", .str "граф")]])]

theorem fetch_busyOnce : ((fetch busyOnce ["graphs".toList]).run []).1 = .ok [graphsPaper] := rfl

theorem printable_graphs : ∀ p ∈ [graphsPaper], Printable p := by
  rintro p hp
  obtain rfl := List.mem_singleton.mp hp
  exact ⟨by decide, by simp [graphsPaper], by simp [graphsPaper]⟩

theorem handle_librarian : librarian.handle aboutGraphs =
    .ok (.ok (recommenderContent [⟨"Graphs", none, none, none, roundTo 4 1⟩])) := by
  have hscored : sortedBy Recommender.rankKey (librarian.scored aboutGraphs []) =
      librarian.scored aboutGraphs [] := List.mergeSort_singleton _
  show Except.ok (Except.ok (recommenderContent
    (((sortedBy Recommender.rankKey (librarian.scored aboutGraphs [])).take 3).map
      fun pair => Recommender.citationOf pair.1 pair.2))) = _
  rw [hscored]
  rfl

theorem citations_fetched_graphs : ∃ new citations queryVector,
    ((fetch busyOnce ["graphs".toList]).run []).2 = [] ++ new ∧
      recommenderContent [⟨"Graphs", none, none, none, roundTo 4 1⟩] = recommenderContent citations ∧
      (citations.map (·.title)).Nodup ∧
      librarian.encode (String.ofList (librarian.query aboutGraphs)) = .ok queryVector ∧
      ∀ c ∈ citations, ∃ paper row, (paper, row) ∈ [graphsPaper].zip (lengths (passages [graphsPaper])) ∧
        Fetched ["graphs".toList] new paper ∧ OfPaper paper c ∧
        c.relevanceScore = roundTo 4 (librarian.cosine queryVector (id row)) :=
  citations_fetched busyOnce fetch_busyOnce (fun _ => List.length_map _)
    (show loadCorpus 1000 Json.dumps _ = _ from loadCorpus_printable printable_graphs)
    (.cons ⟨rfl, rfl, ⟨none, rfl, rfl⟩, rfl, rfl⟩ .nil) handle_librarian

end MasResearch.L3
