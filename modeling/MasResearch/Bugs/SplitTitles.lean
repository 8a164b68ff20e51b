import MasResearch.L2Agents.Corpus

/-!
# A title with a Unicode line separator makes the corpus unreadable

`build` ends each record with `"\n"` and writes the strings with `ensure_ascii=False`, so
that U+0085, U+2028 and U+2029 stay as they are (src/corpus_builder/build.py:123-126).
`load_corpus` ends a record at whatever `str.splitlines` takes for a line break
(src/agents/recommender.py:57), and these three are: the record is cut inside a string, and
`json.loads` raises on its first part.

Counterexample: a search returns one work whose title contains U+2028.

* `corpus_roundtrip_iff`: what `build` wrote is read back, paper by paper with its own
  embedding row, exactly if no title, author string or url has one of the three.
-/
namespace MasResearch.Bugs.SplitTitles

open MasResearch.L2 Json

/-- The entry of a paper with its embedding row. -/
def entryOf {σ : Type} (p : Paper) (row : σ) : CorpusEntry σ :=
  ⟨p.title, optionalText p.authors, optionalInt p.year, optionalText p.url, row⟩

/-- No string of the record has a separator. -/
structure Printable (p : Paper) : Prop where
  title : Unbroken p.title
  authors : ∀ s ∈ p.authors, Unbroken s
  url : ∀ s ∈ p.url, Unbroken s

/-! ## One record -/

theorem meta_scalar (p : Paper) : ∀ q ∈ p.meta, Unbroken q.1 ∧ q.2.Scalar := by
  have ht : ∀ o : Option Text, (optionalText o).Scalar := fun o => by cases o <;> trivial
  have hi : ∀ o : Option Integer, (optionalInt o).Scalar := fun o => by cases o <;> trivial
  simp only [Paper.meta, List.forall_mem_cons, List.not_mem_nil, false_imp_iff, implies_true, and_true]
  exact ⟨⟨by decide, trivial⟩, ⟨by decide, ht _⟩, ⟨by decide, hi _⟩, ⟨by decide, ht _⟩⟩

theorem printable_iff (p : Paper) : Printable p ↔ ∀ q ∈ p.meta, q.2.OneLine := by
  have ht : ∀ o : Option Text, (optionalText o).OneLine ↔ ∀ s ∈ o, Unbroken s := fun o => by
    cases o <;> simp [optionalText, OneLine]
  have hi : ∀ o : Option Integer, (optionalInt o).OneLine := fun o => by cases o <;> trivial
  simp only [Paper.meta, List.forall_mem_cons, List.not_mem_nil, false_imp_iff, implies_true, and_true]
  exact ⟨fun h => ⟨h.title, (ht _).mpr h.authors, hi _, (ht _).mpr h.url⟩,
    fun h => ⟨h.1, (ht _).mp h.2.1, (ht _).mp h.2.2.2⟩⟩

theorem corpusEntry_meta {σ : Type} (depth : Nat) (display : Json → Text) (p : Paper) (row : σ) :
    corpusEntry depth display (dumps (.obj p.meta)) row = .ok (entryOf p row) := by
  have htitle : (Json.obj p.meta).get? "title".toList = some (.str p.title) := rfl
  have hauthors : (Json.obj p.meta).get? "authors".toList = some (optionalText p.authors) := rfl
  have hyear : (Json.obj p.meta).get? "year".toList = some (optionalInt p.year) := rfl
  have hurl : (Json.obj p.meta).get? "url".toList = some (optionalText p.url) := rfl
  have hkeys : (p.meta.map Prod.fst).Nodup :=
    show ["title".toList, "authors".toList, "year".toList, "url".toList].Nodup by decide
  rw [corpusEntry, loads_dumps hkeys fun q hq => (meta_scalar p q hq).2]
  simp only [htitle, hauthors, hyear, hurl, Option.getD_some, strOf, entryOf]

/-! ## The file -/

theorem jsonLine_flatMap_cons (p : Paper) (papers : List Paper) :
    (p :: papers).flatMap jsonLine = dumps (.obj p.meta) ++ '\n' :: papers.flatMap jsonLine := by
  simp [jsonLine]

theorem universalNewlines_jsonl (papers : List Paper) :
    universalNewlines (papers.flatMap jsonLine) = papers.flatMap jsonLine := by
  refine universalNewlines_eq fun h => ?_
  obtain ⟨p, -, hp⟩ := List.mem_flatMap.mp h
  rcases List.mem_append.mp hp with hp | hp
  · exact return_not_mem_dumps (meta_scalar p) hp
  · exact absurd hp (by decide)

theorem splitlines_jsonl : ∀ {papers : List Paper}, (∀ p ∈ papers, Printable p) →
    splitlines (papers.flatMap jsonLine) = papers.map fun p => dumps (.obj p.meta)
  | [], _ => rfl
  | p :: papers, h => by
    rw [List.forall_mem_cons] at h
    have hline := dumps_unbroken (meta_scalar p) ((printable_iff p).mp h.1)
    rw [jsonLine_flatMap_cons, splitlines_break hline (by decide) (by decide), splitlines_jsonl h.2]
    rfl

theorem first_broken {papers : List Paper} (h : ¬ ∀ p ∈ papers, Printable p) :
    ∃ before p after, papers = before ++ p :: after ∧ (∀ q ∈ before, Printable q) ∧ ¬ Printable p := by
  induction papers with
  | nil => exact absurd (by simp) h
  | cons p papers ih =>
    by_cases hp : Printable p
    · obtain ⟨before, q, after, rfl, hb, hq⟩ := ih fun hall => h (List.forall_mem_cons.mpr ⟨hp, hall⟩)
      exact ⟨p :: before, q, after, rfl, List.forall_mem_cons.mpr ⟨hp, hb⟩, hq⟩
    · exact ⟨[], p, papers, rfl, by simp, hp⟩

/-- The lines before the first broken record, and a line that is no record. -/
theorem splitlines_cut {before : List Paper} {p : Paper} (hb : ∀ q ∈ before, Printable q) (hp : ¬ Printable p)
    (after : List Paper) : ∃ a rest, (∀ depth, loads depth a = .error .jsonDecodeError) ∧
      splitlines ((before ++ p :: after).flatMap jsonLine) =
        before.map (fun q => dumps (.obj q.meta)) ++ a :: rest := by
  induction before with
  | nil =>
    obtain ⟨a, c, b, he, hline, hc, hloads⟩ := dumps_cut (meta_scalar p) fun h => hp ((printable_iff p).mpr h)
    have hsep : ∀ c ∈ separators, c ∈ lineBreaks ∧ c ≠ '\r' := forall_mem_of_all (by decide)
    refine ⟨a, splitlines (b ++ '\n' :: after.flatMap jsonLine), hloads, ?_⟩
    rw [List.nil_append, jsonLine_flatMap_cons, he, List.append_assoc, List.cons_append,
      splitlines_break hline (hsep c hc).1 (hsep c hc).2]
    rfl
  | cons q before ih =>
    rw [List.forall_mem_cons] at hb
    obtain ⟨a, rest, hloads, ih⟩ := ih hb.2
    refine ⟨a, rest, hloads, ?_⟩
    have hline := dumps_unbroken (meta_scalar q) ((printable_iff q).mp hb.1)
    rw [List.cons_append, jsonLine_flatMap_cons, splitlines_break hline (by decide) (by decide), ih]
    rfl

section

variable {σ : Type} {depth : Nat} {display : Json → Text}

theorem mapM_entries : ∀ (papers : List Paper) (rows : List σ),
    ((papers.map fun p => dumps (.obj p.meta)).zip rows).mapM (fun p => corpusEntry depth display p.1 p.2) =
      .ok (papers.zipWith entryOf rows)
  | [], _ => rfl
  | _ :: _, [] => rfl
  | p :: papers, row :: rows => by
    have ih := mapM_entries papers rows
    simp only [List.map_cons, List.zip_cons_cons, List.mapM_cons, corpusEntry_meta, ih]
    rfl

/-- The first line that is no record ends the loop. -/
theorem mapM_cut {a : Text} (ha : loads depth a = .error .jsonDecodeError) (rest : List Text) :
    ∀ (before : List Paper) (rows : List σ), before.length < rows.length →
    ((before.map (fun p => dumps (.obj p.meta)) ++ a :: rest).zip rows).mapM
      (fun p => corpusEntry depth display p.1 p.2) = .error (.json .jsonDecodeError)
  | [], row :: rows, _ => by
    have hentry : corpusEntry depth display a row = .error (.json .jsonDecodeError) := by rw [corpusEntry, ha]
    simp only [List.map_nil, List.nil_append, List.zip_cons_cons, List.mapM_cons, hentry]
    rfl
  | p :: before, row :: rows, h => by
    have ih := mapM_cut ha rest before rows (by simpa using h)
    simp only [List.map_cons, List.cons_append, List.zip_cons_cons, List.mapM_cons, corpusEntry_meta, ih]
    rfl

/-- **When a corpus survives its files.** -/
theorem corpus_roundtrip_iff {ρ : Type} {encode : List Text → List ρ}
    (hrows : ∀ texts, (encode texts).length = texts.length) (half : ρ → σ) (depth : Nat)
    (display : Json → Text) {papers : List Paper} (hne : papers ≠ []) :
    loadCorpus depth display (build encode half papers) =
        .ok (papers.zipWith entryOf ((encode (papers.map fun p => "passage: ".toList ++ p.abstract)).map half)) ↔
      ∀ p ∈ papers, Printable p := by
  rw [build, if_neg hne, loadCorpus, universalNewlines_jsonl]
  constructor
  · intro h
    by_contra hbroken
    obtain ⟨before, p, after, rfl, hb, hp⟩ := first_broken hbroken
    obtain ⟨a, rest, ha, hlines⟩ := splitlines_cut hb hp after
    -- the rows go on behind the broken line, so it is read
    rw [hlines, mapM_cut (ha depth) rest before _ (by simp [hrows])] at h
    cases h
  · intro h
    rw [splitlines_jsonl h]
    exact mapM_entries papers _

end

/-- A search that returns one work. -/
def found (title : Text) : List (List Work) :=
  [[{ title := some title, abstractInvertedIndex := some ((∅ : Dict Text (List Int)).set "graphs".toList [0]) }]]

/-- A model that gives each text the row of its length. -/
def lengths (texts : List Text) : List (List ℚ) := texts.map fun text => [(text.length : ℚ)]

theorem corpus_roundtrip_iff_found :
    loadCorpus 1000 Json.dumps (build lengths id (fetchPapers (found "Graphs".toList))) =
      .ok ((fetchPapers (found "Graphs".toList)).zipWith entryOf
        ((lengths ((fetchPapers (found "Graphs".toList)).map fun p => "passage: ".toList ++ p.abstract)).map id)) := by
  refine (corpus_roundtrip_iff (fun _ => List.length_map _) id 1000 Json.dumps ?_).mpr ?_
  · decide
  · intro p hp
    obtain rfl := List.mem_singleton.mp hp
    exact ⟨by decide, by simp [paperOf, truthy], by simp [paperOf, truthy]⟩

/-- **Counterexample**: a title with U+2028. -/
theorem separator_in_title : fetchPapers (found "Graphs\u2028and trees".toList) ≠ [] ∧
    ∀ entries, loadCorpus 1000 Json.dumps (build lengths id (fetchPapers (found "Graphs\u2028and trees".toList))) ≠
      .ok entries := by
  refine ⟨by decide, fun entries h => ?_⟩
  have hraises : (loadCorpus 1000 Json.dumps
      (build lengths id (fetchPapers (found "Graphs\u2028and trees".toList)))).isOk = false := by decide +kernel
  rw [h] at hraises
  cases hraises

end MasResearch.Bugs.SplitTitles
