import MasResearch.L2Agents.Ingestion
import MasResearch.L2Agents.Quizzes
import MasResearch.L2Agents.Recommender
import MasResearch.L2Agents.Summaries
import MasResearch.L2Agents.TermRequests

/-!
# The six agents (`main.py`)

`Workers` is what the agents are made with. What their adapters and models answer is not part of
it: it may be different at every request, and a call may raise.

* `Informed`: what an agent may inform for a request.
-/
namespace MasResearch.L2

open MasResearch.L1

/-- mirrors src/main.py:206-216 -/
structure Workers (κ σ : Type) where
  str : Value → String
  str_str : ∀ s, str (.str s) = s
  lower : String → String
  alphabet : Alphabet
  floatText : Text → Text
  depth : Nat
  frames : Nat
  rawQuiz : Json → Option (List QuizQuestion)
  summarizer : Summarizer.SummarizerAgent
  terminology : TerminologyAgent
  topNDefault : Int
  score : Int → Nat → Nat → κ
  corpus : List (Recommender.CorpusEntry σ)
  dimension : σ → Nat
  cosine : σ → σ → ℚ

namespace Workers

variable {κ σ ε : Type}

def deps (w : Workers κ σ) : Summarizer.Deps := ⟨w.alphabet, w.floatText, w.str, w.depth, w.frames⟩

def quizAgent (w : Workers κ σ) : QuizAgent := ⟨w.lower, w.str, w.alphabet, w.depth, w.rawQuiz⟩

def recommender (w : Workers κ σ) (encode : String → Except ε σ) : Recommender.RecommenderAgent σ ε where
  corpus := w.corpus
  encode := encode
  dimension := w.dimension
  cosine := w.cosine
  str := w.str

/-- What the handler of an agent informs for a request, whatever it is answered. -/
inductive Informed (ε : Type) [LinearOrder κ] (w : Workers κ σ) : AgentName → Message → Content → Prop
  | transcriber {request : Message} {content : Content} (agent : TranscriberAgent ε)
      (h : agent.handle request.taskId request.content = .ok (.ok content)) : Informed ε w .transcriber request content
  | ocr {request : Message} {content : Content} {τ : Type} (agent : OcrAgent τ ε) (s : τ)
      (h : ((agent.handle request.taskId request.content).run s).1 = .ok (.ok content)) :
      Informed ε w .ocr request content
  | summarizer {request : Message} {content : Content} (llm : Llm ε) (log : List (Exchange Text Text ε))
      (h : ((Summarizer.handle w.deps llm w.summarizer request.taskId request.content).run log).1 = .ok (.ok content)) :
      Informed ε w .summarizer request content
  | testGenerator {request : Message} {content : Content} (llm : Llm ε) (log : List (Exchange Text Text ε))
      (h : ((w.quizAgent.handle llm request.taskId request.content).run log).1 = .ok (.ok content)) :
      Informed ε w .testGenerator request content
  | terminology {request : Message} {content : Content}
      (extractMany : List String → Except PyError (List (List TermCandidate)))
      (h : w.terminology.handle w.lower w.str w.topNDefault w.score extractMany request.content = .ok (.ok content)) :
      Informed ε w .terminology request content
  | recommender {request : Message} {content : Content} (encode : String → Except ε σ)
      (h : (w.recommender encode).handle request.content = .ok (.ok content)) :
      Informed ε w .recommender request content

end Workers

/-! ## A crew -/

/-- An open question as `_RawQuiz` reads it. -/
def openQuestion (question : Json) : Option QuizQuestion :=
  match question.get? "question".toList, question.get? "type".toList with
  | some (.str text), some (.str type) =>
    if type = "open_answer".toList then some { question := String.ofList text, type := .openAnswer } else none
  | _, _ => none

/-- `_RawQuiz` of open questions. -/
def openQuestions (data : Json) : Option (List QuizQuestion) :=
  match data.get? "questions".toList with
  | some (.arr questions) => questions.mapM openQuestion
  | _ => none

/-- Workers with one paper, which is like everything, and a model of open questions. -/
def Workers.crew : Workers Int (List ℚ) where
  str := Summarizer.latinDeps.str
  str_str _ := rfl
  lower := id
  alphabet := Summarizer.latin
  floatText := id
  depth := 9000
  frames := 900
  rawQuiz := openQuestions
  summarizer := {}
  terminology := ⟨∅, ∅⟩
  topNDefault := 10
  score frequency _ _ := -frequency
  corpus := [⟨"Graphs", none, none, none, [15]⟩]
  dimension _ := 1
  cosine _ _ := 1

/-- The content that a handler informs. -/
def informedIn {ε : Type} : Except ε (Except String Content) → Option Content
  | .ok (.ok content) => some content
  | _ => none

theorem eq_of_informedIn {ε : Type} {reply : Except ε (Except String Content)}
    (h : (informedIn reply).isSome = true) : reply = .ok (.ok ((informedIn reply).getD [])) := by
  unfold informedIn at h ⊢
  split at h
  · rfl
  · cases h

/-! ### What the crew makes of the transcript of a lecture -/

/-- The one term that is found. -/
def graphsTerm : Term where
  term := "Graphs"
  «lemma» := "graphs"
  frequency := 1
  category := "general"
  sourceChunkId := some "chunk-d1-0"

/-- What is found in any chunk. -/
def foundGraphs : List (List TermCandidate) := [[⟨"Graphs", "graphs", ""⟩]]

theorem extractTerms_graphs (text : String) : extractTerms id ⟨∅, ∅⟩ (fun frequency _ _ => -frequency)
    (fun _ => .ok foundGraphs) [("chunk-d1-0", text)] 10 = .ok [graphsTerm] := by
  have hzip : zipStrict ([("chunk-d1-0", text)].map Prod.fst) foundGraphs =
      .ok [("chunk-d1-0", [⟨"Graphs", "graphs", ""⟩])] := rfl
  obtain ⟨merged, hmerge, hkeys, hterms⟩ : ∃ merged, mergeNearDuplicates
      (collectMaps id ⟨∅, ∅⟩ [("chunk-d1-0", [⟨"Graphs", "graphs", ""⟩])]) = .ok merged ∧
      merged.frequency.keys.mapM (rankingKey (fun frequency _ _ => -frequency) merged [("chunk-d1-0", text)].length) =
        .ok [((-1 : Int), "graphs")] ∧
      ["graphs"].mapM (emitTerm ⟨∅, ∅⟩ merged) = .ok [graphsTerm] := ⟨_, rfl, rfl, rfl⟩
  have hsort : [((-1 : Int), "graphs")].mergeSort (fun a b => !ranksBefore b a) = [((-1 : Int), "graphs")] :=
    List.mergeSort_singleton _
  rw [extractTerms]
  simp only [bind, Except.bind, hzip, hmerge, hkeys, hsort]
  exact hterms

theorem informed_terms {request : Message} {text : String}
    (hs : sourcesOf Workers.crew.str request.content = [("chunk-d1-0", text)])
    (hn : termsTopN 10 request.content = 10) :
    Workers.crew.Informed Unit .terminology request (terminologyContent [graphsTerm]) := by
  refine .terminology (fun _ => .ok foundGraphs) ?_
  have hextract := extractTerms_graphs text
  rw [TerminologyAgent.handle, hs, if_neg (List.cons_ne_nil _ _)]
  show (extractTerms id ⟨∅, ∅⟩ _ _ _ (termsTopN 10 request.content)).map _ = _
  rw [hn]
  exact congrArg (Except.map _) hextract

def graphsCitation : Citation := ⟨"Graphs", none, none, none, roundTo 4 1⟩

/-- The crew's recommender, to which every query is the same. -/
def crewRecommender : Recommender.RecommenderAgent (List ℚ) Unit := Workers.crew.recommender fun _ => .ok []

theorem informed_citations {request : Message} (hq : crewRecommender.query request.content ≠ [])
    (hy : Recommender.yearBounds (Recommender.filtersOf request.content) = (none, none))
    (hn : Recommender.topNOf request.content = 3) :
    Workers.crew.Informed Unit .recommender request (recommenderContent [graphsCitation]) := by
  refine .recommender (fun _ => .ok []) ?_
  have heligible : crewRecommender.eligible request.content = crewRecommender.corpus := by
    rw [Recommender.RecommenderAgent.eligible, hy]
    rfl
  have hsort : sortedBy Recommender.rankKey (crewRecommender.scored request.content []) =
      crewRecommender.scored request.content [] := by
    rw [Recommender.RecommenderAgent.scored, heligible]
    exact List.mergeSort_singleton _
  show (if crewRecommender.query request.content = [] then _ else _) = _
  rw [if_neg hq]
  show Except.ok (Except.ok (recommenderContent (((sortedBy Recommender.rankKey
    (crewRecommender.scored request.content [])).take (Recommender.topNOf request.content)).map
      fun pair => Recommender.citationOf pair.1 pair.2))) = _
  rw [hsort, Recommender.RecommenderAgent.scored, heligible, hn]
  rfl

end MasResearch.L2
