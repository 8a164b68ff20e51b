import MasResearch.L2Agents.Quiz

/-!
# Intrinsic metrics (`evaluation/intrinsic.py`): well-formed questions

The evaluation harness counts the questions of a quiz that are well formed. It reads the
dumped questions, which may be any dict, with a check of its own.

* `isWellFormed_open`, `isWellFormed_single`, `isWellFormed_multi`: what the check says of
  the dump of a question.
-/
namespace MasResearch.L2.Intrinsic

open MasResearch.L1

/-- mirrors src/evaluation/intrinsic.py:8 -/
def minChoices : Nat := 2

/-- `value == text`. -/
def equals (value : Value) (text : String) : Bool :=
  match value with
  | .str s => s = text
  | _ => false

/-- What `len` and `for` see of a value. -/
def items : Value → Except PyError (List Value)
  | .list xs => .ok xs
  | .str s => .ok (s.toList.map fun c => .str (String.singleton c))
  | .dict entries => .ok (entries.map fun entry => .str entry.1)
  -- a TypeError
  | _ => .error .external

/-- `isinstance(value, int) and 0 <= value < n`; a bool is an int. -/
def isIndex (n : Nat) : Value → Bool
  | .int i => 0 ≤ i ∧ i < n
  | .bool b => (if b then 1 else 0) < n
  | _ => false

/-- mirrors src/evaluation/intrinsic.py:41-57 -/
def isWellFormed (env : Env) (question : Content) : Except PyError Bool :=
  let qType := getValue question "type"
  let choices := orElse (getValue question "choices") (.list [])
  if equals qType "open_answer" then .ok (strip (env.str ((question.get? "question").getD (.str ""))).toList ≠ [])
  else if equals qType "single_choice" then do
    let n := (← items choices).length
    return minChoices ≤ n ∧ isIndex n (getValue question "answer_idx")
  else if equals qType "multi_choice" then do
    let n := (← items choices).length
    let idxs := orElse (getValue question "answer_indices") (.list [])
    if n < minChoices ∨ ¬ Value.truthy idxs then return false
    else return (← items idxs).all (isIndex n)
  else .ok false

/-- `question.model_dump()`. -/
def modelDump (q : QuizQuestion) : Content := (Value.asDict (questionDump q)).getD []

/-! ## Dumped questions -/

theorem orElse_list (xs : List Value) : orElse (.list xs) (.list []) = .list xs := by
  cases xs <;> rfl

theorem isIndex_orNone (choices : List String) (idx : Option Int) :
    isIndex choices.length (orNone .int idx) = idx.any (inRange choices) := by
  cases idx with
  | none => rfl
  | some i => simp [orNone, isIndex, inRange]

theorem truthy_list (xs : List Value) : Value.truthy (.list xs) = true ↔ xs ≠ [] := by
  cases xs <;> simp [Value.truthy]

section

variable {q : QuizQuestion}

theorem getValue_type (q : QuizQuestion) : getValue (modelDump q) "type" = .str (QuestionType.value q.type) := rfl

theorem getValue_choices (q : QuizQuestion) : getValue (modelDump q) "choices" = .list (q.choices.map .str) := rfl

theorem getValue_answerIdx (q : QuizQuestion) : getValue (modelDump q) "answer_idx" = orNone .int q.answerIdx := rfl

/-- `question.get("answer_indices") or []`. -/
theorem answerIndices_orElse (q : QuizQuestion) :
    orElse (getValue (modelDump q) "answer_indices") (.list []) = .list ((q.answerIndices.getD []).map .int) := by
  have hget : getValue (modelDump q) "answer_indices" = orNone (fun is => .list (is.map .int)) q.answerIndices := rfl
  rw [hget]
  cases q.answerIndices with
  | none => rfl
  | some is => exact orElse_list _

theorem all_isIndex (choices : List String) (is : List Int) :
    (is.map Value.int).all (isIndex choices.length) = is.all (inRange choices) := by
  rw [List.all_map]
  rfl

theorem isWellFormed_open (env : Env) (h : q.type = .openAnswer) :
    isWellFormed env (modelDump q) = .ok (decide (strip q.question.toList ≠ [])) := by
  rw [isWellFormed, getValue_type, h]
  rfl

theorem isWellFormed_single (env : Env) (h : q.type = .singleChoice) : isWellFormed env (modelDump q) =
    .ok (decide (2 ≤ q.choices.length ∧ q.answerIdx.any (inRange q.choices) = true)) := by
  have hn : (q.choices.map Value.str).length = q.choices.length := List.length_map _
  rw [isWellFormed, getValue_type, getValue_choices, getValue_answerIdx, orElse_list, h, ← isIndex_orNone, ← hn]
  rfl

theorem isWellFormed_multi (env : Env) (h : q.type = .multiChoice) : isWellFormed env (modelDump q) =
    .ok (decide (2 ≤ q.choices.length ∧ q.answerIndices.getD [] ≠ [] ∧
      (q.answerIndices.getD []).all (inRange q.choices) = true)) := by
  have hbody : isWellFormed env (modelDump q) =
      if (q.choices.map Value.str).length < minChoices ∨
          ¬ Value.truthy (.list ((q.answerIndices.getD []).map .int)) = true then .ok false
        else .ok (((q.answerIndices.getD []).map Value.int).all (isIndex (q.choices.map Value.str).length)) := by
    rw [isWellFormed, getValue_type, getValue_choices, answerIndices_orElse, orElse_list, h]
    rfl
  have hne : Value.truthy (.list ((q.answerIndices.getD []).map .int)) = true ↔ q.answerIndices.getD [] ≠ [] := by
    rw [truthy_list, ne_eq, List.map_eq_nil_iff]
  rw [hbody, List.length_map, all_isIndex]
  by_cases hlen : q.choices.length < minChoices
  · have hshort : ¬ 2 ≤ q.choices.length := Nat.not_le.mpr hlen
    rw [if_pos (.inl hlen)]
    simp [hshort]
  · have hlong : 2 ≤ q.choices.length := Nat.le_of_not_lt hlen
    by_cases hnil : q.answerIndices.getD [] = []
    · rw [if_pos (.inr fun htrue => hne.mp htrue hnil)]
      simp [hnil]
    · rw [if_neg (not_or.mpr ⟨hlen, fun hfalse => hfalse (hne.mpr hnil)⟩)]
      simp only [hlong, hnil, ne_eq, not_false_eq_true, true_and, Bool.decide_eq_true]

end

/-- The questions of a quiz that the harness counts.
mirrors src/evaluation/intrinsic.py:63 -/
def wellFormedCount (env : Env) (quiz : List Content) : Except PyError Nat := do
  let verdicts ← quiz.mapM (isWellFormed env)
  return verdicts.count true

end MasResearch.L2.Intrinsic
