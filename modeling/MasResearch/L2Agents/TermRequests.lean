import Mathlib.Algebra.Order.BigOperators.Group.List
import MasResearch.Core.Ranking
import MasResearch.L2Agents.Summaries
import MasResearch.L2Agents.Terminology

/-!
# The terminology agent (`agents/terminology.py`): requests

The chunks with some content are the sources; their terms are informed, or the request is
refused if there are none.

* `extracted_extractTerms`: the terms are the first of the merged lemmas, each with a chunk it was
  found in.
* `handle_extracts`: with the spaCy adapter, a request is answered as its chunks alone would be.
-/
namespace MasResearch.L2

open MasResearch.L1

/-- The chunks of a request that are not blank, with their ids.
mirrors src/agents/terminology.py:195-201 -/
def sourcesOf (str : Value → String) (content : Content) : List (String × String) :=
  (Summarizer.chunkDicts content).filterMap fun chunk =>
    let text := str ((chunk.get? "content").getD (.str ""))
    if stripped text = "" then none else some (str ((chunk.get? "id").getD (.str "")), text)

/-- A `bool` is an `int`.
mirrors src/agents/terminology.py:26,204-205 -/
def termsTopN (topNDefault : Int) (content : Content) : Int :=
  match content.get? "top_n" with
  | some (.int n) => if 0 < n then n else topNDefault
  | some (.bool true) => 1
  | _ => topNDefault

section

variable {κ : Type} [LinearOrder κ] (lower : String → String) (str : Value → String) (agent : TerminologyAgent)
  (topNDefault : Int) (score : Int → Nat → Nat → κ)
  (extractMany : List String → Except PyError (List (List TermCandidate)))

/-- mirrors src/agents/terminology.py:194-207 -/
def TerminologyAgent.handle (content : Content) : Except PyError (Except String Content) :=
  let sources := sourcesOf str content
  if sources = [] then .ok (.error "no chunk content for terminology extraction")
  else (extractTerms lower agent score extractMany sources (termsTopN topNDefault content)).map fun terms =>
    .ok (terminologyContent terms)

end

/-! ## Terms -/

section

variable {κ : Type} [LinearOrder κ] {lower : String → String} {agent : TerminologyAgent}
  {score : Int → Nat → Nat → κ} {extractMany : List String → Except PyError (List (List TermCandidate))}
  {sources : List (String × String)} {topN : Int} {terms : List Term}

/-- A counted lemma was counted at least once. -/
theorem Collected.frequency_pos {os : List (String × TermCandidate)} {maps : CandidateMaps}
    (h : Collected lower os maps) {a : String} (ha : a ∈ maps.frequency) : 1 ≤ maps.frequency.getD a 0 := by
  rw [h.frequency]
  exact_mod_cast List.count_pos_iff.mpr ((h.frequencyKeys a).mp ha)

/-- So is the one that stands for a group. -/
theorem Represents.frequency_pos {maps merged : CandidateMaps} {group : List String} {a : String}
    (h : Represents maps merged group a) (hpos : ∀ m ∈ group, 1 ≤ maps.frequency.getD m 0) :
    1 ≤ merged.frequency.getD a 0 := by
  have hsum : maps.frequency.getD a 0 ≤ (group.map fun m => maps.frequency.getD m 0).sum := by
    refine List.single_le_sum (fun n hn => ?_) _ (List.mem_map_of_mem h.mem)
    obtain ⟨m, hm, rfl⟩ := List.mem_map.mp hn
    exact Int.le_of_lt (hpos m hm)
  rw [Dict.getD_eq, h.frequency]
  exact (hpos a h.mem).trans hsum

/-- The merge of what was counted succeeds, and every merged lemma was seen in a chunk. -/
theorem merged_collectMaps (lower : String → String) (agent : TerminologyAgent)
    (entries : List (String × List TermCandidate)) :
    ∃ merged, mergeNearDuplicates (collectMaps lower agent entries) = .ok merged ∧ ∀ a ∈ merged.frequency,
      ((∃ ids, merged.chunkIds.get? a = some ids ∧ ids.Nonempty) ∧ 1 ≤ merged.frequency.getD a 0) ∧
      ∃ o ∈ occurrences lower agent entries,
        o.2.key lower = a ∧ merged.firstSeen.get? a = some (o.2.text, o.2.label, o.1) := by
  have hcollected := collected_collectMaps lower agent entries
  have hblank : ∀ a ∈ (collectMaps lower agent entries).frequency, tokens a ≠ [] := by
    intro a ha
    obtain ⟨o, ho, rfl⟩ := List.mem_map.mp ((hcollected.frequencyKeys a).mp ha)
    exact tokens_passes (passes_occurrences ho)
  obtain ⟨groupKey, merged, -, hmerge, hperm, hof⟩ :=
    mergeOf_mergeNearDuplicates (fun a ha => hcollected.has ha) hblank
  have hhas : ∀ group ∈ (members groupKey).values, ∀ m ∈ group, (collectMaps lower agent entries).Has m :=
    fun group hg m hm => hcollected.has (hperm.subset (List.mem_flatten.mpr ⟨group, hg, hm⟩))
  have hne : ∀ group ∈ (members groupKey).values, group ≠ [] := by
    intro group hg
    obtain ⟨h, hh⟩ := Dict.mem_values.mp hg
    exact (mem_members hh).1
  refine ⟨merged, hmerge, fun a ha => ?_⟩
  obtain ⟨group, hg, hrep⟩ := hof.exists_group hhas hne ha
  have hin := (hhas group hg a hrep.mem).frequency
  have hpos := hrep.frequency_pos fun m hm => hcollected.frequency_pos (hhas group hg m hm).frequency
  exact ⟨⟨hcollected.ids_nonempty hrep hin, hpos⟩, hcollected.merged_first hrep hin⟩

theorem length_of_zipStrict {α β : Type} {xs : List α} {ys : List β} {zs : List (α × β)}
    (h : zipStrict xs ys = .ok zs) : ys.length = xs.length := by
  unfold zipStrict at h
  split_ifs at h
  omega

/-- An occurrence is in the list of its chunk. -/
theorem mem_of_mem_occurrences {entries : List (String × List TermCandidate)} {o : String × TermCandidate}
    (h : o ∈ occurrences lower agent entries) : ∃ candidates, (o.1, candidates) ∈ entries := by
  obtain ⟨entry, hentry, hin⟩ := List.mem_flatMap.mp (List.mem_of_mem_filter h)
  obtain ⟨candidate, -, rfl⟩ := List.mem_map.mp hin
  exact ⟨entry.2, hentry⟩

/-- The key by which a merged lemma is ranked. -/
def lemmaKey (score : Int → Nat → Nat → κ) (merged : CandidateMaps) (n : Nat) (a : String) : κ ×ₗ String :=
  toLex (score (merged.frequency.getD a 0) n (merged.chunkIds.getD a ∅).card, a)

theorem ranking_eq (score : Int → Nat → Nat → κ) (merged : CandidateMaps) (n : Nat) :
    ranking score merged n = sortedBy (lemmaKey score merged n) merged.frequency.keys := by
  have hle : ∀ a b, decide (lemmaKey score merged n a ≤ lemmaKey score merged n b) =
      !ranksBefore (ofLex (lemmaKey score merged n b)) (ofLex (lemmaKey score merged n a)) := by
    intro a b
    rw [Bool.eq_iff_iff, decide_eq_true_iff, Bool.not_eq_true', ← Bool.not_eq_true, ← not_lt, not_iff_not]
    rw [lemmaKey, lemmaKey, Prod.Lex.toLex_lt_toLex, ranksBefore, decide_eq_true_iff]
    rfl
  have hmap := List.map_mergeSort (f := fun a => ofLex (lemmaKey score merged n a))
    (s := fun a b => !ranksBefore b a) (l := merged.frequency.keys) (fun a _ b _ => hle a b)
  have hsnd : ∀ keys : List String, (keys.map fun a => ofLex (lemmaKey score merged n a)).map Prod.snd = keys :=
    fun keys => by rw [List.map_map]; exact List.map_id _
  rw [ranking, sortedBy, ← hsnd (merged.frequency.keys.mergeSort _), hmap]
  rfl

/-- The terms of what was found in each source: the best of the merged lemmas. -/
def TermsOf (lower : String → String) (agent : TerminologyAgent) (score : Int → Nat → Nat → κ) (topN : Int)
    (sources : List (String × String)) (found : List (List TermCandidate)) (terms : List Term) : Prop :=
  ∃ merged lemmas, mergeNearDuplicates (collectMaps lower agent ((sources.map Prod.fst).zip found)) = .ok merged ∧
    TopOf (lemmaKey score merged sources.length) topN.toNat merged.frequency.keys lemmas ∧
    terms = lemmas.map (termOf agent merged)

/-- The terms stand for the first of the merged lemmas, each seen in a chunk. -/
theorem extractTerms_found (lower : String → String) (agent : TerminologyAgent) (score : Int → Nat → Nat → κ)
    {found : List (List TermCandidate)} (hner : extractMany (sources.map Prod.snd) = .ok found)
    (hlen : found.length = sources.length) (hpos : 0 < topN) :
    ∃ merged lemmas, mergeNearDuplicates (collectMaps lower agent ((sources.map Prod.fst).zip found)) = .ok merged ∧
      TopOf (lemmaKey score merged sources.length) topN.toNat merged.frequency.keys lemmas ∧
      (∀ a ∈ lemmas, 1 ≤ merged.frequency.getD a 0 ∧
        ∃ o ∈ occurrences lower agent ((sources.map Prod.fst).zip found),
          o.2.key lower = a ∧ merged.firstSeen.get? a = some (o.2.text, o.2.label, o.1)) ∧
      extractTerms lower agent score extractMany sources topN = .ok (lemmas.map (termOf agent merged)) := by
  obtain ⟨merged, hmerge, hseen⟩ := merged_collectMaps lower agent ((sources.map Prod.fst).zip found)
  have hterms : extractTerms lower agent score extractMany sources topN =
      .ok ((sliceTo (ranking score merged sources.length) topN).map (termOf agent merged)) :=
    extractTerms_ok hner hlen topN hmerge (fun a ha => (hseen a ha).1.1) fun a ha =>
      have ⟨_, _, _, hget⟩ := (hseen a ha).2
      Dict.mem_of_get? hget
  have hslice : sliceTo (ranking score merged sources.length) topN =
      (sortedBy (lemmaKey score merged sources.length) merged.frequency.keys).take topN.toNat := by
    rw [sliceTo, if_pos (Int.le_of_lt hpos), ranking_eq]
  rw [hslice] at hterms
  have htop := topOf_sortedBy (lemmaKey score merged sources.length) topN.toNat merged.frequency.keys
  exact ⟨merged, _, hmerge, htop, fun a ha => (hseen a (htop.subset ha)).imp_left And.right, hterms⟩

/-- The terms are the first of the merged lemmas; each is attributed to a chunk it was found in. -/
structure Extracted (lower : String → String) (agent : TerminologyAgent) (score : Int → Nat → Nat → κ)
    (sources : List (String × String)) (topN : Int) (terms : List Term) : Prop where
  count : terms.length ≤ topN.toNat
  distinct : (terms.map fun term => term.lemma).Nodup
  filtered : ∀ term ∈ terms, passes agent term.lemma = true
  attributed : ∀ term ∈ terms, ∃ source ∈ sources, term.sourceChunkId = some source.1
  counted : ∀ term ∈ terms, 1 ≤ term.frequency
  categorized : ∀ term ∈ terms, ∃ label, term.category = categorize agent term.lemma label
  bare : ∀ term ∈ terms, term.context = none
  ranked : ∃ merged, TopOf (lemmaKey score merged sources.length) topN.toNat merged.frequency.keys
    (terms.map fun term => term.lemma)

theorem extracted_extractTerms (hpos : 0 < topN)
    (h : extractTerms lower agent score extractMany sources topN = .ok terms) :
    Extracted lower agent score sources topN terms := by
  obtain ⟨found, hner, h'⟩ := bind_ok_iff.mp h
  obtain ⟨entries, hzip, -⟩ := bind_ok_iff.mp h'
  have hlen : found.length = sources.length := by rw [length_of_zipStrict hzip, List.length_map]
  obtain ⟨merged, lemmas, -, htop, hseen, hterms⟩ := extractTerms_found lower agent score hner hlen hpos
  rw [hterms] at h
  obtain rfl := Except.ok.inj h
  have hlemmas : ((lemmas.map (termOf agent merged)).map fun term => term.lemma) = lemmas := by
    rw [List.map_map]
    exact List.map_id _
  -- what was counted for an emitted lemma, and in which chunk
  have hfirst : ∀ term ∈ lemmas.map (termOf agent merged),
      passes agent term.lemma = true ∧ ∃ source ∈ sources, term.sourceChunkId = some source.1 := by
    intro term hterm
    obtain ⟨a, ha, rfl⟩ := List.mem_map.mp hterm
    obtain ⟨-, o, ho, rfl, hget⟩ := hseen a ha
    refine ⟨passes_occurrences ho, ?_⟩
    obtain ⟨candidates, hin⟩ := mem_of_mem_occurrences ho
    obtain ⟨source, hs, he⟩ := List.mem_map.mp (List.of_mem_zip hin).1
    refine ⟨source, hs, ?_⟩
    rw [termOf, Dict.getD_eq, hget, he]
    rfl
  constructor
  case count => rw [List.length_map, htop.length]; exact min_le_left _ _
  case distinct => rw [hlemmas]; exact htop.nodup merged.frequency.nodup_keys
  case filtered => exact fun term hterm => (hfirst term hterm).1
  case attributed => exact fun term hterm => (hfirst term hterm).2
  case counted =>
    intro term hterm
    obtain ⟨a, ha, rfl⟩ := List.mem_map.mp hterm
    exact (hseen a ha).1
  case categorized =>
    intro term hterm
    obtain ⟨a, -, rfl⟩ := List.mem_map.mp hterm
    exact ⟨_, rfl⟩
  case bare =>
    intro term hterm
    obtain ⟨a, -, rfl⟩ := List.mem_map.mp hterm
    rfl
  case ranked => exact ⟨merged, by rw [hlemmas]; exact htop⟩

/-- What is informed are the terms of the chunks that are not blank. -/
theorem TerminologyAgent.informed {str : Value → String} {topNDefault : Int} {content reply : Content}
    (hpos : 0 < termsTopN topNDefault content)
    (h : agent.handle lower str topNDefault score extractMany content = .ok (.ok reply)) :
    ∃ terms, reply = terminologyContent terms ∧
      Extracted lower agent score (sourcesOf str content) (termsTopN topNDefault content) terms := by
  unfold TerminologyAgent.handle at h
  dsimp only at h
  split_ifs at h
  · cases h
  obtain ⟨terms, hterms, he⟩ := map_ok h
  exact ⟨terms, (Except.ok.inj he).symm, extracted_extractTerms hpos hterms⟩

end

/-! ## Requests with the spaCy adapter -/

section

variable {κ P : Type} [LinearOrder κ] (lower : String → String) (str : Value → String) (agent : TerminologyAgent)
  (topNDefault : Int) (score : Int → Nat → Nat → κ) (package : Spacy.Package P) (adapter : Spacy.SpacyNerAdapter)

/-- What the spaCy adapter finds in texts, after some calls. -/
def together (calls : List Spacy.Call) (texts : List String) : Except PyError (List (List TermCandidate)) :=
  ((Spacy.extractMany lower package adapter texts).run (Spacy.afterCalls lower package adapter calls)).1

/-- What it finds in a text that it is given alone. -/
def alone (calls : List Spacy.Call) (text : String) : Except PyError (List TermCandidate) :=
  ((Spacy.extract lower package adapter text).run (Spacy.afterCalls lower package adapter calls)).1

/-- The handler with the spaCy adapter, on which there were calls before.
mirrors src/main.py:99-105,222 -/
def TerminologyAgent.handleSpacy (earlier : List Spacy.Call) (content : Content) :
    Except PyError (Except String Content) :=
  agent.handle lower str topNDefault score (together lower package adapter earlier) content

variable {lower str agent topNDefault score package adapter}

theorem termsTopN_pos (hpos : 0 < topNDefault) (content : Content) : 0 < termsTopN topNDefault content := by
  unfold termsTopN
  split
  · split
    · assumption
    · exact hpos
  · decide
  · exact hpos

theorem extractMany_alone (hpipe : package.Pipes) (earlier calls : List Spacy.Call) {texts : List String}
    {results : List (List TermCandidate)} :
    together lower package adapter earlier texts = .ok results ↔
      List.Forall₂ (fun text found => alone lower package adapter calls text = .ok found) texts results := by
  have hplain : ∀ text, alone lower package adapter calls text = Spacy.plainExtract lower package adapter text :=
    fun text => (Spacy.yields_extract text _ (Spacy.resolves_afterCalls lower package adapter calls)).1
  rw [together, (Spacy.yields_extractMany texts _ (Spacy.resolves_afterCalls lower package adapter earlier)).1,
    Spacy.plainMany_ok_iff hpipe]
  simp only [hplain]

/-- A request that was answered had its chunks looked at. -/
theorem ner_of_handle {extractMany : List String → Except PyError (List (List TermCandidate))} {content : Content}
    {reply : Except String Content} (hne : sourcesOf str content ≠ [])
    (h : agent.handle lower str topNDefault score extractMany content = .ok reply) :
    ∃ found, extractMany ((sourcesOf str content).map Prod.snd) = .ok found := by
  rw [TerminologyAgent.handle, if_neg hne] at h
  obtain ⟨terms, hterms, -⟩ := map_ok h
  obtain ⟨found, hner, -⟩ := bind_ok_iff.mp hterms
  exact ⟨found, hner⟩

/-- **Requests to the terminology agent**, whatever was asked of its adapter before: one without
content is refused; any other is answered exactly when each of its chunks alone would be, with the
terms of what is found in each chunk alone. -/
theorem handle_extracts (lower : String → String) (str : Value → String) (agent : TerminologyAgent)
    (score : Int → Nat → Nat → κ) {package : Spacy.Package P} (adapter : Spacy.SpacyNerAdapter) (hpipe : package.Pipes)
    (hpos : 0 < topNDefault) (earlier calls : List Spacy.Call) (content : Content) :
    (sourcesOf str content = [] →
      agent.handleSpacy lower str topNDefault score package adapter earlier content =
        .ok (.error "no chunk content for terminology extraction")) ∧
    (sourcesOf str content ≠ [] →
      ((∃ reply, agent.handleSpacy lower str topNDefault score package adapter earlier content = .ok reply) ↔
        ∀ source ∈ sourcesOf str content, ∃ found, alone lower package adapter calls source.2 = .ok found) ∧
      ∀ reply, agent.handleSpacy lower str topNDefault score package adapter earlier content = .ok reply →
        ∃ found terms,
          List.Forall₂ (fun source f => alone lower package adapter calls source.2 = .ok f)
            (sourcesOf str content) found ∧
          TermsOf lower agent score (termsTopN topNDefault content) (sourcesOf str content) found terms ∧
          reply = .ok (terminologyContent terms)) := by
  have hmany : ∀ found, together lower package adapter earlier ((sourcesOf str content).map Prod.snd) = .ok found ↔
        List.Forall₂ (fun source f => alone lower package adapter calls source.2 = .ok f)
          (sourcesOf str content) found :=
    fun found => (extractMany_alone hpipe earlier calls).trans List.forall₂_map_left_iff
  -- each chunk alone gives what the batch gives, in the order of the chunks
  have hok : ∀ found, List.Forall₂ (fun source f => alone lower package adapter calls source.2 = .ok f)
      (sourcesOf str content) found → sourcesOf str content ≠ [] → ∃ terms,
        TermsOf lower agent score (termsTopN topNDefault content) (sourcesOf str content) found terms ∧
        agent.handleSpacy lower str topNDefault score package adapter earlier content =
          .ok (.ok (terminologyContent terms)) := by
    intro found hfound hne
    obtain ⟨merged, lemmas, hmerge, htop, -, hextract⟩ := extractTerms_found lower agent score
      ((hmany found).mpr hfound) hfound.length_eq.symm (termsTopN_pos hpos content)
    refine ⟨_, ⟨merged, lemmas, hmerge, htop, rfl⟩, ?_⟩
    rw [TerminologyAgent.handleSpacy, TerminologyAgent.handle, if_neg hne, hextract]
    rfl
  refine ⟨fun hnil => ?_, fun hne => ⟨⟨?_, ?_⟩, ?_⟩⟩
  · rw [TerminologyAgent.handleSpacy, TerminologyAgent.handle, if_pos hnil]
  · rintro ⟨reply, h⟩
    obtain ⟨found, hfound⟩ := ner_of_handle hne h
    exact exists_forall₂_iff.mp ⟨found, (hmany found).mp hfound⟩
  · intro hall
    obtain ⟨found, hfound⟩ := exists_forall₂_iff.mpr hall
    obtain ⟨terms, -, hreply⟩ := hok found hfound hne
    exact ⟨_, hreply⟩
  · intro reply h
    obtain ⟨found, hner⟩ := ner_of_handle hne h
    have hfound := (hmany found).mp hner
    obtain ⟨terms, hterms, hreply⟩ := hok found hfound hne
    exact ⟨found, terms, hfound, hterms, Except.ok.inj (h.symm.trans hreply)⟩

/-- Two chunks and a blank one. -/
def graphChunks : Content := [("chunks", .list [.dict [("id", .str "c1"), ("content", .str "Граф")],
  .dict [("id", .str "c2"), ("content", .str " ")], .dict [("id", .str "c3"), ("content", .str "Graph")]])]

theorem handle_extracts_onlyRu : ∃ found terms,
    List.Forall₂ (fun source f => alone id Spacy.onlyRu {} [.extract "Tree"] source.2 = .ok f)
      [("c1", "Граф"), ("c3", "Graph")] found ∧
    TermsOf id ⟨∅, ∅⟩ (fun f _ _ => -f) 10 [("c1", "Граф"), ("c3", "Graph")] found terms ∧
    TerminologyAgent.handleSpacy id Summarizer.latinDeps.str ⟨∅, ∅⟩ 10 (fun f _ _ => -f) Spacy.onlyRu {} []
      graphChunks = .ok (.ok (terminologyContent terms)) := by
  have hsources : sourcesOf Summarizer.latinDeps.str graphChunks = [("c1", "Граф"), ("c3", "Graph")] := by
    decide +kernel
  have hpipe : Spacy.onlyRu.Pipes := fun _ _ _ => mapM_ok_iff
  obtain ⟨-, hanswered⟩ := handle_extracts id Summarizer.latinDeps.str ⟨∅, ∅⟩ (fun f _ _ => -f) {} hpipe
    (by decide : (0 : Int) < 10) [] [.extract "Tree"] graphChunks
  rw [hsources] at hanswered
  obtain ⟨hiff, hreplied⟩ := hanswered (List.cons_ne_nil _ _)
  obtain ⟨reply, hreply⟩ := hiff.mpr (List.forall_mem_cons.mpr ⟨⟨_, rfl⟩, List.forall_mem_singleton.mpr ⟨_, rfl⟩⟩)
  obtain ⟨found, terms, hfound, hterms, rfl⟩ := hreplied reply hreply
  exact ⟨found, terms, hfound, hterms, hreply⟩

end

end MasResearch.L2
