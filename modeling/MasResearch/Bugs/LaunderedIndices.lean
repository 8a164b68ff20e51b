import MasResearch.L2Agents.Quiz

/-!
# A multiple choice loses its out-of-range indices before it is checked

`_dedup_choices` leaves out an index that is not one of a choice
(src/agents/test_generator.py:154), and `is_well_formed` is asked afterwards
(src/agents/test_generator.py:93-94). For a single choice the index becomes `None` and the
question is dropped; a multiple choice keeps its other indices and passes, although its
check asks for every index to be in range (src/core/schemas.py:115-116).

Counterexample: two choices and the one-based indices 1 and 2; the second choice alone is
then called right.

* `gate_iff`: a question that passes was well formed as the LLM gave it, except for a
  multiple choice with two different choices and indices both in and out of range.
-/
namespace MasResearch.Bugs.LaunderedIndices

open MasResearch.L1 MasResearch.L2

/-- Some of its indices name a choice and some do not. -/
structure Mixed (lower : String → String) (q : QuizQuestion) : Prop where
  multi : q.type = .multiChoice
  stem : strip q.question.toList ≠ []
  distinct : ∃ a ∈ q.choices, ∃ b ∈ q.choices, choiceKey lower a ≠ choiceKey lower b
  inside : ∃ i ∈ q.answerIndices.getD [], inRange q.choices i = true
  outside : ∃ i ∈ q.answerIndices.getD [], inRange q.choices i = false

theorem two_le_choices {lower : String → String} {q : QuizQuestion}
    (h : 2 ≤ (firsts (choiceKey lower) q.choices).length) : 2 ≤ q.choices.length :=
  h.trans (firsts_sublist _ _).length_le

/-- A single choice passes with an index in range only. -/
theorem wellFormed_of_single {lower : String → String} {q : QuizQuestion} (h : q.type = .singleChoice)
    (hne : q.choices ≠ []) (hwf : isWellFormed (dedupChoices lower q) = true) : isWellFormed q = true := by
  obtain ⟨hstem, hlen, hin⟩ := (wellFormed_dedup_single h hne).mp hwf
  exact (wellFormed_single h).mpr ⟨hstem, two_le_choices hlen, hin⟩

/-- A multiple choice passes with one such index. -/
theorem multi_iff {lower : String → String} {q : QuizQuestion} (h : q.type = .multiChoice) (hne : q.choices ≠ []) :
    (isWellFormed (dedupChoices lower q) = true → isWellFormed q = true) ↔ ¬ Mixed lower q := by
  rw [wellFormed_dedup_multi h hne, wellFormed_multi h, two_le_firsts]
  constructor
  · intro himp hmixed
    obtain ⟨i, hi, hout⟩ := hmixed.outside
    have := (himp ⟨hmixed.stem, hmixed.distinct, hmixed.inside⟩).2.2.2 i hi
    rw [hout] at this; cases this
  · rintro hno ⟨hstem, hdistinct, i, hi, hin⟩
    refine ⟨hstem, two_le_choices ((two_le_firsts (choiceKey lower)).mpr hdistinct), List.ne_nil_of_mem hi, ?_⟩
    intro j hj
    by_contra hout
    exact hno ⟨h, hstem, hdistinct, ⟨i, hi, hin⟩, j, hj, by simpa using hout⟩

/-- **When the gate lets nothing malformed through.** -/
theorem gate_iff (lower : String → String) (q : QuizQuestion) :
    (isWellFormed (dedupChoices lower q) = true → isWellFormed q = true) ↔ ¬ Mixed lower q := by
  by_cases hne : q.choices = []
  · have hself : dedupChoices lower q = q := if_pos (.inr hne)
    rw [hself]
    refine ⟨fun _ hmixed => ?_, fun _ hwf => hwf⟩
    obtain ⟨a, ha, -⟩ := hmixed.distinct
    rw [hne] at ha; cases ha
  cases h : q.type with
  | openAnswer =>
    have hself : dedupChoices lower q = q := if_pos (.inl h)
    rw [hself]
    refine ⟨fun _ hmixed => ?_, fun _ hwf => hwf⟩
    have := hmixed.multi
    rw [h] at this; cases this
  | singleChoice =>
    refine ⟨fun _ hmixed => ?_, fun _ => wellFormed_of_single h hne⟩
    have := hmixed.multi
    rw [h] at this; cases this
  | multiChoice => exact multi_iff h hne

/-- The LLM counts from one. -/
def oneBased : QuizQuestion where
  question := "Which of these are prime?"
  type := .multiChoice
  choices := ["2", "3"]
  answerIndices := some [1, 2]

/-- **Counterexample**: the question passes with "3" as its only answer. -/
theorem one_based_indices : isWellFormed (dedupChoices id oneBased) = true ∧
    answers (dedupChoices id oneBased) = ["3"] ∧ isWellFormed oneBased = false := by
  decide

end MasResearch.Bugs.LaunderedIndices
