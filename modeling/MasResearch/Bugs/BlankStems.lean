import MasResearch.L2Evaluation.Intrinsic

/-!
# The harness counts choice questions without a stem as well formed

`_is_well_formed` of the evaluation harness looks at the stem of an open question only
(src/evaluation/intrinsic.py:43-57). `QuizQuestion.is_well_formed`, which the quiz agent
asks, wants one of every question: "all types require a non-empty stem"
(src/core/schemas.py:103-108).

Counterexample: a single choice with two choices, an answer and a blank stem.

* `agree_iff`: the two checks agree on every question but these.
-/
namespace MasResearch.Bugs.BlankStems

open MasResearch.L1 MasResearch.L2

/-- A choice question that has all it needs but a stem. -/
structure OnlyStemMissing (q : QuizQuestion) : Prop where
  blank : strip q.question.toList = []
  closed : q.type ≠ .openAnswer
  enough : 2 ≤ q.choices.length
  single : q.type = .singleChoice → ∃ i ∈ q.answerIdx, inRange q.choices i = true
  multi : q.type = .multiChoice → q.answerIndices.getD [] ≠ [] ∧
    ∀ i ∈ q.answerIndices.getD [], inRange q.choices i = true

section

variable {q : QuizQuestion}

theorem wellFormed_open (h : q.type = .openAnswer) : isWellFormed q = decide (strip q.question.toList ≠ []) := by
  unfold isWellFormed
  rw [h]
  by_cases hs : strip q.question.toList = [] <;> simp [hs]

/-- With the choices and the answer in order the two checks differ on a blank stem only. -/
theorem agree_of (env : Env) {complete : Prop} [Decidable complete]
    (hharness : Intrinsic.isWellFormed env (Intrinsic.modelDump q) = .ok (decide complete))
    (hagent : isWellFormed q = true ↔ strip q.question.toList ≠ [] ∧ complete)
    (hmissing : OnlyStemMissing q ↔ strip q.question.toList = [] ∧ complete) :
    Intrinsic.isWellFormed env (Intrinsic.modelDump q) = .ok (isWellFormed q) ↔ ¬ OnlyStemMissing q := by
  rw [hharness, Except.ok.injEq, Bool.eq_iff_iff, decide_eq_true_iff, hagent, hmissing]
  constructor
  · rintro hiff ⟨hblank, hcomplete⟩
    exact (hiff.mp hcomplete).1 hblank
  · intro hno
    exact ⟨fun hcomplete => ⟨fun hblank => hno ⟨hblank, hcomplete⟩, hcomplete⟩, And.right⟩

theorem agree_single (env : Env) (h : q.type = .singleChoice) :
    Intrinsic.isWellFormed env (Intrinsic.modelDump q) = .ok (isWellFormed q) ↔ ¬ OnlyStemMissing q := by
  refine agree_of env (Intrinsic.isWellFormed_single env h) ?_ ?_
  · rw [wellFormed_single h, Option.any_eq_true]
    rfl
  · rw [Option.any_eq_true]
    constructor
    · rintro ⟨hblank, -, hlen, hidx, -⟩
      exact ⟨hblank, hlen, hidx h⟩
    · rintro ⟨hblank, hlen, hidx⟩
      exact ⟨hblank, by simp [h], hlen, fun _ => hidx, by simp [h]⟩

theorem agree_multi (env : Env) (h : q.type = .multiChoice) :
    Intrinsic.isWellFormed env (Intrinsic.modelDump q) = .ok (isWellFormed q) ↔ ¬ OnlyStemMissing q := by
  refine agree_of env (Intrinsic.isWellFormed_multi env h) ?_ ?_
  · rw [wellFormed_multi h, List.all_eq_true]
  · rw [List.all_eq_true]
    constructor
    · rintro ⟨hblank, -, hlen, -, hidx⟩
      exact ⟨hblank, hlen, hidx h⟩
    · rintro ⟨hblank, hlen, hidx⟩
      exact ⟨hblank, by simp [h], hlen, by simp [h], fun _ => hidx⟩

end

/-- **When the two checks agree.** -/
theorem agree_iff (env : Env) (q : QuizQuestion) :
    Intrinsic.isWellFormed env (Intrinsic.modelDump q) = .ok (isWellFormed q) ↔ ¬ OnlyStemMissing q := by
  cases h : q.type with
  | openAnswer =>
    rw [Intrinsic.isWellFormed_open env h, wellFormed_open h]
    exact iff_of_true rfl fun hmissing => hmissing.closed h
  | singleChoice => exact agree_single env h
  | multiChoice => exact agree_multi env h

/-- A choice question that asks nothing. -/
def stemless : QuizQuestion where
  question := " "
  type := .singleChoice
  choices := ["a", "b"]
  answerIdx := some 0

/-- **Counterexample.** -/
theorem stemless_counts :
    (∀ env : Env, Intrinsic.isWellFormed env (Intrinsic.modelDump stemless) = .ok true) ∧
      isWellFormed stemless = false :=
  ⟨fun _ => rfl, by decide⟩

end MasResearch.Bugs.BlankStems
