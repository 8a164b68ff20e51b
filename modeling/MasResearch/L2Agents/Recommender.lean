import MasResearch.Core.Ranking
import MasResearch.Core.Firsts
import MasResearch.Core.Join
import MasResearch.Core.Rounding
import MasResearch.L2Store.ResultRows

/-!
# The recommender agent (`agents/recommender.py`)

A query is made of the summary's introduction and the first terms, embedded, and compared with
every paper of the corpus that lies between the years asked for. The best become citations.

The embedding model, the dimension of a vector and the cosine of two are parameters; scores
are rationals, as finite floats are.

* `OfTop.cites`: the citations are the best of the papers between the years.
* `handle_cites`: what the agent informs or refuses, whatever the order of the corpus.
-/
namespace MasResearch.L2.Recommender

open MasResearch.L1

/-! ## The functions -/

/-- The fields as they are annotated.
mirrors src/agents/recommender.py:32-40 -/
structure CorpusEntry (σ : Type) where
  title : String
  authors : Option String := none
  year : Option Int := none
  url : Option String := none
  embedding : σ

/-- mirrors src/agents/recommender.py:27 -/
def defaultN : Nat := 3

/-- mirrors src/agents/recommender.py:28 -/
def introChars : Nat := 200

/-- mirrors src/agents/recommender.py:29 -/
def topTerms : Nat := 5

section

variable (str : Value → String)

/-- `str(section.get(key, default))` and the like. -/
def textAt (items : Content) (key : String) (default : Value) : Text := (str ((items.get? key).getD default)).toList

/-- `section.get("type") == "introduction"`. -/
def isIntroduction (items : Content) : Bool :=
  match items.get? "type" with
  | some (.str t) => t = "introduction"
  | _ => false

/-- mirrors src/agents/recommender.py:117-124 -/
def introOf (summary : Option Value) : Text :=
  match summary with
  | some (.dict items) =>
    match Content.get? items "sections" with
    | some (.list sections) =>
      match (sections.filterMap Value.asDict).find? isIntroduction with
      | some part => (textAt str part "text" (.str "")).take introChars
      | none => []
    | _ => []
  | _ => []

/-- mirrors src/agents/recommender.py:125-129 -/
def termsOf (terms : Option Value) : List Text :=
  match terms with
  | some (.list terms) => ((terms.take topTerms).filterMap Value.asDict).map fun term =>
      textAt str term "term" ((term.get? "lemma").getD (.str ""))
  | _ => []

/-- mirrors src/agents/recommender.py:116-130 -/
def buildQuery (summary terms : Option Value) : Text :=
  strip (joinNonempty [' '] (introOf str summary :: termsOf str terms))

end

/-- `value if isinstance(value, int) else None`; a `bool` is an `int`. -/
def intOf : Option Value → Option Int
  | some (.int n) => some n
  | some (.bool b) => some (if b then 1 else 0)
  | _ => none

/-- The filters of a request, if it has a dict of them. -/
def filtersOf (content : Content) : Content := ((content.get? "filters").bind Value.asDict).getD []

/-- mirrors src/agents/recommender.py:133-136 -/
def yearBounds (filters : Content) : Option Int × Option Int :=
  (intOf (filters.get? "year_min"), intOf (filters.get? "year_max"))

/-- mirrors src/agents/recommender.py:139-144 -/
def yearOk (year yearMin yearMax : Option Int) : Bool :=
  match year with
  | none => true
  | some year => yearMin.all (· ≤ year) && yearMax.all (year ≤ ·)

/-- mirrors src/agents/recommender.py:90-91 -/
def topNOf (content : Content) : Nat :=
  match content.get? "n" with
  | some (.int n) => if 0 < n then n.toNat else defaultN
  | _ => defaultN

/-- What the agent is made with, and what its methods call. -/
structure RecommenderAgent (σ ε : Type) where
  corpus : List (CorpusEntry σ)
  encode : String → Except ε σ
  dimension : σ → Nat
  cosine : σ → σ → ℚ
  str : Value → String

/-- mirrors src/agents/recommender.py:104-110 -/
def citationOf {σ : Type} (entry : CorpusEntry σ) (score : ℚ) : Citation where
  title := entry.title
  authors := entry.authors
  year := entry.year
  url := entry.url
  relevanceScore := roundTo 4 score

section

variable {σ ε : Type} (agent : RecommenderAgent σ ε)

/-- The papers between the years of the request. -/
def RecommenderAgent.eligible (content : Content) : List (CorpusEntry σ) :=
  let bounds := yearBounds (filtersOf content)
  agent.corpus.filter fun entry => yearOk entry.year bounds.1 bounds.2

def RecommenderAgent.query (content : Content) : Text :=
  buildQuery agent.str (content.get? "summary") (content.get? "terms")

/-- `(-pair[1], pair[0].title)`. -/
def rankKey (pair : CorpusEntry σ × ℚ) : ℚ ×ₗ String := toLex (-pair.2, pair.1.title)

/-- mirrors src/agents/recommender.py:83-113 -/
def RecommenderAgent.handle (content : Content) : Except ε (Except String Content) :=
  match agent.corpus with
  | [] => .ok (.error "corpus not loaded")
  | first :: _ =>
    if agent.query content = [] then .ok (.error "no summary or terms for recommendation")
    else do
      let queryVector ← agent.encode (String.ofList (agent.query content))
      if agent.dimension queryVector ≠ agent.dimension first.embedding then
        return .error "embedding dimension mismatch"
      let scored := (agent.eligible content).map fun entry => (entry, agent.cosine queryVector entry.embedding)
      let citations := ((sortedBy rankKey scored).take (topNOf content)).map fun pair => citationOf pair.1 pair.2
      return .ok (recommenderContent citations)

end

/-! ## The citations -/

section

variable {σ ε : Type} {agent : RecommenderAgent σ ε} {content : Content} {queryVector : σ} {citations : List Citation}

/-- The papers between the years with their scores. -/
def RecommenderAgent.scored (agent : RecommenderAgent σ ε) (content : Content) (queryVector : σ) :
    List (CorpusEntry σ × ℚ) :=
  (agent.eligible content).map fun entry => (entry, agent.cosine queryVector entry.embedding)

/-- The citations are made of the top of the scored papers. -/
def OfTop (agent : RecommenderAgent σ ε) (content : Content) (queryVector : σ) (citations : List Citation) : Prop :=
  ∃ top, TopOf rankKey (topNOf content) (agent.scored content queryVector) top ∧
    citations = top.map fun pair => citationOf pair.1 pair.2

/-- As many as asked for, of papers between the years, the best first, and none that is left out
is better. -/
structure Cites (agent : RecommenderAgent σ ε) (content : Content) (queryVector : σ)
    (citations : List Citation) : Prop where
  count : citations.length = min (topNOf content) (agent.eligible content).length
  cited : ∀ c ∈ citations, ∃ entry ∈ agent.eligible content,
    c = citationOf entry (agent.cosine queryVector entry.embedding)
  ranked : citations.Pairwise fun c d => d.relevanceScore ≤ c.relevanceScore
  best : ∀ entry ∈ agent.eligible content, citationOf entry (agent.cosine queryVector entry.embedding) ∈ citations ∨
    ∀ c ∈ citations, roundTo 4 (agent.cosine queryVector entry.embedding) ≤ c.relevanceScore

theorem score_of_rankKey_le {p q : CorpusEntry σ × ℚ} (h : rankKey p ≤ rankKey q) : q.2 ≤ p.2 := by
  rw [rankKey, rankKey, Prod.Lex.toLex_le_toLex] at h
  rcases h with h | ⟨h, -⟩ <;> dsimp only at h <;> linarith

theorem OfTop.cites (h : OfTop agent content queryVector citations) : Cites agent content queryVector citations := by
  obtain ⟨top, htop, rfl⟩ := h
  obtain ⟨rest, hperm, hrest⟩ := htop.rest
  have hscore : ∀ {p : CorpusEntry σ × ℚ}, p ∈ agent.scored content queryVector →
      p.1 ∈ agent.eligible content ∧ p.2 = agent.cosine queryVector p.1.embedding := by
    intro p hp
    obtain ⟨entry, he, rfl⟩ := List.mem_map.mp hp
    exact ⟨he, rfl⟩
  constructor
  case count => rw [List.length_map, htop.length, RecommenderAgent.scored, List.length_map]
  case cited =>
    intro c hc
    obtain ⟨p, hp, rfl⟩ := List.mem_map.mp hc
    obtain ⟨he, hs⟩ := hscore (htop.subset hp)
    exact ⟨p.1, he, by rw [hs]⟩
  case ranked =>
    rw [List.pairwise_map]
    exact htop.sorted.imp fun h => roundTo_mono 4 (score_of_rankKey_le h)
  case best =>
    intro entry he
    have hin : (entry, agent.cosine queryVector entry.embedding) ∈ agent.scored content queryVector :=
      List.mem_map_of_mem he
    rcases List.mem_append.mp (hperm.symm.subset hin) with hp | hp
    · exact .inl (List.mem_map.mpr ⟨_, hp, rfl⟩)
    · refine .inr fun c hc => ?_
      obtain ⟨p, hp', rfl⟩ := List.mem_map.mp hc
      exact roundTo_mono 4 (score_of_rankKey_le (hrest p hp' _ hp))

/-- What becomes of a request. -/
inductive Replied (agent : RecommenderAgent σ ε) (content : Content) : Except ε (Except String Content) → Prop
  | noCorpus (h : agent.corpus = []) : Replied agent content (.ok (.error "corpus not loaded"))
  | noQuery (h : agent.corpus ≠ []) (hq : agent.query content = []) :
      Replied agent content (.ok (.error "no summary or terms for recommendation"))
  | raised {e : ε} (h : agent.corpus ≠ []) (hq : agent.query content ≠ [])
      (hv : agent.encode (String.ofList (agent.query content)) = .error e) : Replied agent content (.error e)
  | mismatch {queryVector : σ} (hq : agent.query content ≠ [])
      (hv : agent.encode (String.ofList (agent.query content)) = .ok queryVector)
      (hd : ∃ first ∈ agent.corpus.head?, agent.dimension queryVector ≠ agent.dimension first.embedding) :
      Replied agent content (.ok (.error "embedding dimension mismatch"))
  | cited {queryVector : σ} {citations : List Citation} (hq : agent.query content ≠ [])
      (hv : agent.encode (String.ofList (agent.query content)) = .ok queryVector)
      (hd : ∃ first ∈ agent.corpus.head?, agent.dimension queryVector = agent.dimension first.embedding)
      (htop : OfTop agent content queryVector citations) (hc : Cites agent content queryVector citations) :
      Replied agent content (.ok (.ok (recommenderContent citations)))

theorem replied_handle (agent : RecommenderAgent σ ε) (content : Content) :
    Replied agent content (agent.handle content) := by
  unfold RecommenderAgent.handle
  cases hcorpus : agent.corpus with
  | nil => exact .noCorpus hcorpus
  | cons first rest =>
    have hne : agent.corpus ≠ [] := by rw [hcorpus]; exact List.cons_ne_nil _ _
    have hfirst : first ∈ agent.corpus.head? := by rw [hcorpus]; rfl
    dsimp only
    by_cases hq : agent.query content = []
    · rw [if_pos hq]
      exact .noQuery hne hq
    rw [if_neg hq]
    cases hv : agent.encode (String.ofList (agent.query content)) with
    | error e => exact .raised hne hq hv
    | ok queryVector =>
      simp only [bind, Except.bind]
      by_cases hd : agent.dimension queryVector = agent.dimension first.embedding
      · have htop : OfTop agent content queryVector _ := ⟨_, topOf_sortedBy rankKey _ _, rfl⟩
        simp only [ne_eq, hd, not_true_eq_false, if_false]
        exact .cited hq hv ⟨first, hfirst, hd⟩ htop htop.cites
      · simp only [ne_eq, hd, not_false_eq_true, if_true]
        exact .mismatch hq hv ⟨first, hfirst, hd⟩

/-- The titles and scores that are informed do not depend on the order of the corpus. -/
theorem OfTop.perm {agent' : RecommenderAgent σ ε} {citations' : List Citation}
    (h : OfTop agent content queryVector citations) (h' : OfTop agent' content queryVector citations')
    (hperm : (agent.scored content queryVector).Perm (agent'.scored content queryVector)) :
    citations.map (fun c => (c.title, c.relevanceScore)) = citations'.map fun c => (c.title, c.relevanceScore) := by
  obtain ⟨top, htop, rfl⟩ := h
  obtain ⟨top', htop', rfl⟩ := h'
  have hkey : ∀ pairs : List (CorpusEntry σ × ℚ),
      (pairs.map fun pair => citationOf pair.1 pair.2).map (fun c => (c.title, c.relevanceScore)) =
        (pairs.map rankKey).map fun key => ((ofLex key).2, roundTo 4 (-(ofLex key).1)) := fun pairs => by
    simp [List.map_map, Function.comp_def, rankKey, citationOf]
  rw [hkey, hkey, htop.keys htop' hperm]

/-- Papers that have titles of their own are cited once. -/
theorem OfTop.titles (h : OfTop agent content queryVector citations)
    (htitles : (agent.corpus.map (·.title)).Nodup) : (citations.map (·.title)).Nodup := by
  obtain ⟨top, htop, rfl⟩ := h
  have hscored : ((agent.scored content queryVector).map fun pair => pair.1.title).Nodup := by
    rw [RecommenderAgent.scored, List.map_map]
    exact htitles.sublist (List.filter_sublist.map _)
  rw [List.map_map]
  exact htop.nodup_map hscored

theorem scored_perm {corpus : List (CorpusEntry σ)} (hperm : agent.corpus.Perm corpus) (content : Content)
    (queryVector : σ) : (agent.scored content queryVector).Perm
      (RecommenderAgent.scored { agent with corpus := corpus } content queryVector) :=
  (hperm.filter _).map _

theorem cited_perm {corpus : List (CorpusEntry σ)} {informed informed' : Content} (hperm : agent.corpus.Perm corpus)
    (h : agent.handle content = .ok (.ok informed))
    (h' : RecommenderAgent.handle { agent with corpus := corpus } content = .ok (.ok informed')) :
    ∃ citations citations', informed = recommenderContent citations ∧ informed' = recommenderContent citations' ∧
      citations.map (fun c => (c.title, c.relevanceScore)) =
        citations'.map fun c => (c.title, c.relevanceScore) := by
  have hr := replied_handle agent content
  have hr' := replied_handle { agent with corpus := corpus } content
  rw [h] at hr
  rw [h'] at hr'
  cases hr with
  | @cited queryVector citations _ hv _ htop =>
    cases hr' with
    | @cited queryVector' citations' _ hv' _ htop' =>
      obtain rfl : queryVector = queryVector' := Except.ok.inj (hv.symm.trans hv')
      exact ⟨citations, citations', rfl, rfl, htop.perm htop' (scored_perm hperm content queryVector)⟩

/-- **One request.** What is cited are the best papers between the years, and the order of the
corpus does not matter to it. -/
theorem handle_cites (agent : RecommenderAgent σ ε) (content : Content) {corpus : List (CorpusEntry σ)}
    (hperm : agent.corpus.Perm corpus) :
    Replied agent content (agent.handle content) ∧ ∀ informed informed', agent.handle content = .ok (.ok informed) →
      RecommenderAgent.handle { agent with corpus := corpus } content = .ok (.ok informed') →
      ∃ citations citations', informed = recommenderContent citations ∧ informed' = recommenderContent citations' ∧
        citations.map (fun c => (c.title, c.relevanceScore)) =
          citations'.map fun c => (c.title, c.relevanceScore) :=
  ⟨replied_handle agent content, fun _ _ h h' => cited_perm hperm h h'⟩

end

/-- A paper from before the years, and two of one score. -/
def threePapers : RecommenderAgent ℚ Unit where
  corpus := [⟨"b", none, some 2020, none, 1 / 2⟩, ⟨"a", none, none, none, 1 / 2⟩, ⟨"c", none, some 1990, none, 1⟩]
  encode _ := .ok 1
  dimension _ := 1
  cosine _ v := v
  str v := match v with
    | .str s => s
    | _ => ""

def recentOnly : Content := [("terms", .list [.dict [("term", .str "граф")]]), ("n", .int 1),
  ("filters", .dict [("year_min", .int 2000)])]

theorem handle_cites_recent :
    (threePapers.eligible recentOnly).map (·.title) = ["b", "a"] ∧
    Replied threePapers recentOnly (threePapers.handle recentOnly) ∧ ∀ informed informed',
      threePapers.handle recentOnly = .ok (.ok informed) →
      RecommenderAgent.handle { threePapers with corpus := threePapers.corpus.reverse } recentOnly =
        .ok (.ok informed') →
      ∃ citations citations', informed = recommenderContent citations ∧ informed' = recommenderContent citations' ∧
        citations.map (fun c => (c.title, c.relevanceScore)) =
          citations'.map fun c => (c.title, c.relevanceScore) :=
  ⟨by decide +kernel, handle_cites threePapers recentOnly (List.reverse_perm _).symm⟩

end MasResearch.L2.Recommender
