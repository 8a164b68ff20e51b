import MasResearch.L2Agents.LlmCalls
import MasResearch.L2Agents.Quiz

/-!
# The quiz agent (`agents/test_generator.py`): calls and reply

One call asks for a quiz, and once more if the answer is none. Its questions lose their repeated
choices, and those that are not well formed or not about the summary are left out.

* `quiz_replied`: what the agent informs or refuses.
* `QuizAgent.grounded`: every question it informs is well formed and about the summary.
-/
namespace MasResearch.L2

open MasResearch.L1

section

variable {ε : Type} (a : QuizAgent) (llm : Llm ε) (taskId : String) (content : Content)

/-- The text of the summary of a request. -/
def QuizAgent.summary : String := summaryToText a.str ((content.get? "summary").getD .none)

/-- What the model is asked. -/
def QuizAgent.prompt : Text := (quizPrompt a.str content (a.summary content)).toList

/-- `_RawQuiz.model_validate`, which runs no code of the repository. -/
def QuizAgent.modelValidate (json : Json) : Except Json.Fault (Option (List QuizQuestion)) := .ok (a.rawQuiz json)

/-- mirrors src/agents/test_generator.py:79-107 -/
def QuizAgent.handle : LlmM ε (Except String Content) :=
  if a.summary content = "" then pure (.error "no summary content for test generation")
  else do
    let quiz ← askWithRetry a.alphabet a.depth a.modelValidate llm (a.prompt content) 1
    pure (informQuiz a.lower taskId (difficultyOf content) (a.summary content) (quiz.getD []))

/-- The quiz in an answer. -/
def QuizAgent.quizIn (x : Exchange Text Text ε) : Except Json.Fault (Option (List QuizQuestion)) :=
  parsedAnswer a.alphabet a.depth a.modelValidate x

/-- A call raised it, or the reading of an answer. -/
def QuizAgent.Raised (new : List (Exchange Text Text ε)) (e : LlmError ε) : Prop :=
  RaisedIn a.alphabet a.depth a.modelValidate new e

/-- What the agent keeps of the model's questions. -/
def QuizAgent.keeps (quiz : List QuizQuestion) : List QuizQuestion :=
  ((quiz.map (dedupChoices a.lower)).filter isWellFormed).filter (referencesSummary a.lower · (a.summary content))

end

section

variable {ε : Type} {a : QuizAgent} {llm : Llm ε} {taskId : String} {content : Content}

/-! ## The questions -/

/-- A question that the agent informs. -/
structure Kept (a : QuizAgent) (content : Content) (quiz : List QuizQuestion) (q : QuizQuestion) : Prop where
  wellFormed : isWellFormed q = true
  grounded : referencesSummary a.lower q (a.summary content) = true
  distinct : q.type ≠ .openAnswer → (q.choices.map (choiceKey a.lower)).Nodup
  raw : ∃ raw ∈ quiz, q = dedupChoices a.lower raw

theorem type_dedupChoices (lower : String → String) (q : QuizQuestion) : (dedupChoices lower q).type = q.type := by
  unfold dedupChoices
  split_ifs <;> rfl

theorem nodup_dedupChoices (lower : String → String) {q : QuizQuestion} (h : q.type ≠ .openAnswer) :
    ((dedupChoices lower q).choices.map (choiceKey lower)).Nodup := by
  by_cases hne : q.choices = []
  · have hself : dedupChoices lower q = q := if_pos (.inr hne)
    rw [hself, hne]
    exact List.nodup_nil
  · rw [dedupChoices_eq lower h hne]
    exact nodup_firsts _ _

section

variable {quiz : List QuizQuestion}

theorem kept_of_mem {q : QuizQuestion} (h : q ∈ a.keeps content quiz) : Kept a content quiz q := by
  obtain ⟨hwf, hground⟩ := List.mem_filter.mp h
  obtain ⟨hmem, hformed⟩ := List.mem_filter.mp hwf
  obtain ⟨raw, hraw, rfl⟩ := List.mem_map.mp hmem
  refine ⟨hformed, hground, fun htype => nodup_dedupChoices a.lower ?_, raw, hraw, rfl⟩
  rwa [type_dedupChoices] at htype

/-- What becomes of a quiz. -/
inductive Sifted (a : QuizAgent) (taskId : String) (content : Content) (quiz : List QuizQuestion) :
    Except String Content → Prop
  | malformed (hnone : ∀ raw ∈ quiz, isWellFormed (dedupChoices a.lower raw) = false) :
      Sifted a taskId content quiz (.error "llm returned no well-formed quiz questions")
  | ungrounded (hformed : ∃ raw ∈ quiz, isWellFormed (dedupChoices a.lower raw) = true)
      (hnone : a.keeps content quiz = []) :
      Sifted a taskId content quiz (.error "llm returned no grounded quiz questions")
  | informed (hsome : a.keeps content quiz ≠ []) (hkept : ∀ q ∈ a.keeps content quiz, Kept a content quiz q) :
      Sifted a taskId content quiz
        (.ok (testGeneratorContent taskId (difficultyOf content) (a.keeps content quiz)))

theorem sifted_informQuiz (hne : quiz ≠ []) :
    Sifted a taskId content quiz (informQuiz a.lower taskId (difficultyOf content) (a.summary content) quiz) := by
  unfold informQuiz
  rw [if_neg hne]
  dsimp only
  split_ifs with hformed hground
  · refine .malformed fun raw hraw => ?_
    have := List.filter_eq_nil_iff.mp hformed _ (List.mem_map_of_mem hraw)
    exact Bool.eq_false_iff.mpr this
  · obtain ⟨q, hq⟩ := List.exists_mem_of_ne_nil _ hformed
    obtain ⟨hmem, hwf⟩ := List.mem_filter.mp hq
    obtain ⟨raw, hraw, rfl⟩ := List.mem_map.mp hmem
    exact .ungrounded ⟨raw, hraw, hwf⟩ hground
  · exact .informed hground fun q hq => kept_of_mem hq

end

/-! ## The reply -/

/-- What the agent replies, by what the model was asked and answered. -/
inductive QuizReplied (a : QuizAgent) (taskId : String) (content : Content) (new : List (Exchange Text Text ε)) :
    Except String Content → Prop
  | noSummary (hnone : a.summary content = "") (hnew : new = []) :
      QuizReplied a taskId content new (.error "no summary content for test generation")
  | invalid (hsome : a.summary content ≠ "") (habout : About (a.prompt content) 2 new) (hasked : new ≠ [])
      (hnone : (∀ x ∈ new, a.quizIn x = .ok none) ∨ ∃ x ∈ new, a.quizIn x = .ok (some [])) :
      QuizReplied a taskId content new (.error "llm returned invalid quiz json")
  | sifted {quiz : List QuizQuestion} {reply : Except String Content} (hsome : a.summary content ≠ "")
      (habout : About (a.prompt content) 2 new) (hne : quiz ≠ [])
      (hfound : ∃ x ∈ new, a.quizIn x = .ok (some quiz)) (hsifted : Sifted a taskId content quiz reply) :
      QuizReplied a taskId content new reply

theorem logs_quiz (a : QuizAgent) (llm : Llm ε) (taskId : String) (content : Content)
    (log : List (Exchange Text Text ε)) :
    Exec.Logs (a.handle llm taskId content) log (fun reply new => QuizReplied a taskId content new reply)
      (fun e new => About (a.prompt content) 2 new ∧ a.Raised new e) := by
  unfold QuizAgent.handle
  by_cases hsome : a.summary content = ""
  · rw [if_pos hsome]
    exact Exec.logs_pure (.noSummary hsome rfl)
  rw [if_neg hsome]
  refine (logs_askWithRetry a.alphabet a.depth a.modelValidate llm (a.prompt content) 1 log).bind ?_ fun e new h => h
  rintro result new ⟨habout, hfound, x, hx, -⟩
  refine Exec.logs_pure ?_
  rw [List.append_nil]
  cases result with
  | none => exact .invalid hsome habout (List.ne_nil_of_mem hx) (.inl (hfound.2 rfl))
  | some quiz =>
    by_cases hne : quiz = []
    · subst hne
      exact .invalid hsome habout (List.ne_nil_of_mem hx) (.inr (hfound.1 [] rfl))
    · exact .sifted hsome habout hne (hfound.1 quiz rfl) (sifted_informQuiz hne)

/-- Every question that is informed was checked. -/
theorem QuizAgent.grounded {log : List (Exchange Text Text ε)} {reply : Content}
    (h : ((a.handle llm taskId content).run log).1 = .ok (.ok reply)) :
    ∃ questions, reply = testGeneratorContent taskId (difficultyOf content) questions ∧ a.summary content ≠ "" ∧
      ∀ q ∈ questions, isWellFormed q = true ∧ referencesSummary a.lower q (a.summary content) = true := by
  obtain ⟨_, -, hok, -⟩ := logs_quiz a llm taskId content log
  cases hok _ h with
  | sifted hsome _ _ _ hsifted =>
    cases hsifted with
    | informed _ hkept => exact ⟨_, rfl, hsome, fun q hq => ⟨(hkept q hq).wellFormed, (hkept q hq).grounded⟩⟩

end

end MasResearch.L2
