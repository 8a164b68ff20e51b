import MasResearch.Core.Firsts
import MasResearch.L2Agents.LlmJson
import MasResearch.L2Store.ResultRows
import Mathlib.Data.List.Sort

/-!
# The quiz agent (`agents/test_generator.py`)

The questions an LLM gives lose the choices that repeat another up to case and
surrounding whitespace, are then checked for being answerable, and those left are
informed (`informQuiz`). `dedupChoices` builds two dictionaries in one pass over the choices: where each
text stands in the new list, and where each old index goes.

* `dedupLoop_inv`: after the pass the choices are the first of each text, and the old
  indices go to their slots.
* `dedup_keeps_key`: a well-formed choice question with two different choices stays well
  formed and keeps its right answers.
* `dedupChoices_idem`: a second pass changes nothing, whatever the question.
-/
namespace MasResearch.L2

open MasResearch.L1

/-! ## Questions -/

/-- `0 <= index < len(choices)`. -/
def inRange (choices : List String) (index : Int) : Bool := 0 ≤ index ∧ index < choices.length

/-- mirrors src/core/schemas.py:103-116 -/
def isWellFormed (q : QuizQuestion) : Bool :=
  if strip q.question.toList = [] then false
  else match q.type with
    | .openAnswer => true
    | .singleChoice => 2 ≤ q.choices.length && q.answerIdx.any (inRange q.choices)
    | .multiChoice =>
      let indices := q.answerIndices.getD []
      2 ≤ q.choices.length && !indices.isEmpty && indices.all (inRange q.choices)

section

variable (lower : String → String)

/-- `choice.strip().lower()`. -/
def choiceKey (choice : String) : String := lower (stripped choice)

structure DedupLoop where
  newChoices : List String := []
  remap : Dict Int Nat := ∅
  seen : Dict String Nat := ∅

/-- mirrors src/agents/test_generator.py:141-148 -/
def dedupStep (s : DedupLoop) (entry : String × Nat) : DedupLoop :=
  let key := choiceKey lower entry.1
  match s.seen.get? key with
  | some place => { s with remap := s.remap.set entry.2 place }
  | none =>
    { newChoices := s.newChoices ++ [entry.1]
      remap := s.remap.set entry.2 s.newChoices.length
      seen := s.seen.set key s.newChoices.length }

def dedupLoop (choices : List String) : DedupLoop := choices.zipIdx.foldl (dedupStep lower) {}

/-- `sorted(set(xs))`. -/
def sortedSet (xs : List Nat) : List Nat := xs.dedup.insertionSort (· ≤ ·)

/-- mirrors src/agents/test_generator.py:129-160 -/
def dedupChoices (q : QuizQuestion) : QuizQuestion :=
  if q.type = .openAnswer ∨ q.choices = [] then q
  else
    let loop := dedupLoop lower q.choices
    { q with
      choices := loop.newChoices
      answerIdx := (q.answerIdx.bind loop.remap.get?).map Int.ofNat
      answerIndices := q.answerIndices.map fun indices =>
        (sortedSet (indices.filterMap loop.remap.get?)).map Int.ofNat }

/-! ## The agent -/

/-- `[a-zа-яё0-9]`. -/
def isTokenChar (c : Char) : Bool :=
  ('a' ≤ c ∧ c ≤ 'z') ∨ ('а' ≤ c ∧ c ≤ 'я') ∨ c = 'ё' ∨ c.isDigit

/-- The runs of four such characters or more in `text.lower()`. -/
def contentTokens (text : String) : List Text :=
  ((lower text).toList.splitOnP fun c => !isTokenChar c).filter fun token => 4 ≤ token.length

/-- mirrors src/agents/test_generator.py:110-126 -/
def referencesSummary (q : QuizQuestion) (summaryText : String) : Bool :=
  q.type ≠ .openAnswer ||
    (contentTokens lower q.question).any (contentTokens lower summaryText).contains

end

/-- What the agent calls besides the model: string methods and the validation of its JSON, which is
read to a `depth`. -/
structure QuizAgent where
  lower : String → String
  str : Value → String
  alphabet : Alphabet
  depth : Nat
  rawQuiz : Json → Option (List QuizQuestion)

/-- mirrors src/agents/test_generator.py:163-170 -/
def summaryToText (str : Value → String) : Value → String
  | .dict summary =>
    match Content.get? summary "sections" with
    | some (.list sections) =>
      let parts := sections.filterMap fun
        | .dict sec => some (str ((Content.get? sec "text").getD (.str "")))
        | _ => none
      stripped ("\n".intercalate (parts.filter (· ≠ "")))
    | _ => ""
  | _ => ""

/-- What is informed of the model's questions, or the reason to refuse.
mirrors src/agents/test_generator.py:91-107 -/
def informQuiz (lower : String → String) (taskId difficulty summaryText : String) (quiz : List QuizQuestion) :
    Except String Content :=
  if quiz = [] then .error "llm returned invalid quiz json"
  else
    let questions := quiz.map (dedupChoices lower)
    let wellFormed := questions.filter isWellFormed
    if wellFormed = [] then .error "llm returned no well-formed quiz questions"
    else
      let grounded := wellFormed.filter (referencesSummary lower · summaryText)
      if grounded = [] then .error "llm returned no grounded quiz questions"
      else .ok (testGeneratorContent taskId difficulty grounded)

/-- mirrors src/agents/test_generator.py:84-86 -/
def difficultyOf (content : Content) : String :=
  match content.get? "difficulty" with
  | some (.str difficulty) => difficulty
  | _ => "medium"

/-- mirrors src/agents/test_generator.py:83,87 -/
def quizPrompt (str : Value → String) (content : Content) (summaryText : String) : String :=
  "Составь " ++ str ((content.get? "num_questions").getD (.int 5)) ++ " вопрос(ов) сложности '" ++
    difficultyOf content ++ "' по саммари:\n" ++ summaryText

/-! ## The pass over the choices -/

variable {lower : String → String}

/-- The state after the choices. -/
structure DedupLoop.Inv (lower : String → String) (choices : List String) (s : DedupLoop) : Prop where
  newChoices : s.newChoices = firsts (choiceKey lower) choices
  remap : ∀ i, s.remap.get? i = slot (choiceKey lower) choices i
  seen : ∀ k, s.seen.get? k = ((firsts (choiceKey lower) choices).map (choiceKey lower)).idxOf? k

theorem DedupLoop.Inv.step {choices : List String} {s : DedupLoop} (h : s.Inv lower choices) (choice : String) :
    (dedupStep lower s (choice, choices.length)).Inv lower (choices ++ [choice]) := by
  have hremap : ∀ place, ((firsts (choiceKey lower) (choices ++ [choice])).map (choiceKey lower)).idxOf?
      (choiceKey lower choice) = some place → ∀ i, (s.remap.set choices.length place).get? i =
        slot (choiceKey lower) (choices ++ [choice]) i := fun place hplace i => by
    rw [Dict.get?_set, slot_concat, hplace, h.remap]
  have hkeys := mem_keys_firsts (choiceKey lower) (choiceKey lower choice) choices
  simp only [dedupStep]
  cases hseen : s.seen.get? (choiceKey lower choice) with
  | some place =>
    rw [h.seen] at hseen
    have hmem : choiceKey lower choice ∈ choices.map (choiceKey lower) := by
      rw [← hkeys]
      by_contra hn
      rw [List.idxOf?_eq_none_iff.mpr hn] at hseen
      cases hseen
    have hfirsts := firsts_concat (choiceKey lower) choice choices
    rw [if_pos hmem] at hfirsts
    exact ⟨by rw [hfirsts]; exact h.newChoices, hremap place (by rw [hfirsts]; exact hseen),
      by rw [hfirsts]; exact h.seen⟩
  | none =>
    rw [h.seen, List.idxOf?_eq_none_iff] at hseen
    have hfirsts := firsts_concat (choiceKey lower) choice choices
    rw [if_neg (fun hm => hseen (hkeys.mpr hm))] at hfirsts
    have hlen : s.newChoices.length = ((firsts (choiceKey lower) choices).map (choiceKey lower)).length := by
      rw [h.newChoices, List.length_map]
    have hself := idxOf?_concat_self hseen
    refine ⟨by rw [hfirsts, h.newChoices], hremap _ ?_, fun k => ?_⟩
    · rw [hfirsts, List.map_append, hlen]
      exact hself
    · rw [Dict.get?_set, hfirsts, List.map_append, h.seen]
      split
      · rename_i hk; rw [hk, hlen]; exact hself.symm
      · rename_i hk
        by_cases hm : k ∈ (firsts (choiceKey lower) choices).map (choiceKey lower)
        · exact (idxOf?_append_of_mem hm).symm
        · rw [List.idxOf?_eq_none_iff.mpr hm, List.idxOf?_eq_none_iff.mpr]
          simpa [hk] using hm

theorem dedupLoop_inv (lower : String → String) (choices : List String) :
    (dedupLoop lower choices).Inv lower choices := by
  induction choices using List.reverseRecOn with
  | nil => exact ⟨rfl, fun i => by simp [dedupLoop, slot, itemAt], fun k => rfl⟩
  | append_singleton choices choice ih =>
    have hzip : (choices ++ [choice]).zipIdx = choices.zipIdx ++ [(choice, choices.length)] := by
      simp [List.zipIdx_append]
    rw [dedupLoop, hzip, List.foldl_append]
    exact ih.step choice

/-- A question that loses choices. -/
theorem dedupChoices_eq (lower : String → String) {q : QuizQuestion} (htype : q.type ≠ .openAnswer)
    (hne : q.choices ≠ []) :
    dedupChoices lower q = { q with
      choices := firsts (choiceKey lower) q.choices
      answerIdx := (q.answerIdx.bind (slot (choiceKey lower) q.choices)).map Int.ofNat
      answerIndices := q.answerIndices.map fun indices =>
        (sortedSet (indices.filterMap (slot (choiceKey lower) q.choices))).map Int.ofNat } := by
  have h := dedupLoop_inv lower q.choices
  have hremap : (dedupLoop lower q.choices).remap.get? = slot (choiceKey lower) q.choices := funext h.remap
  simp only [dedupChoices, htype, hne, or_self, if_false, h.newChoices, hremap]

/-! ## Once is enough -/

theorem mem_sortedSet {xs : List Nat} {n : Nat} : n ∈ sortedSet xs ↔ n ∈ xs := by
  rw [sortedSet, List.mem_insertionSort, List.mem_dedup]

theorem sortedSet_sortedSet (xs : List Nat) : sortedSet (sortedSet xs) = sortedSet xs := by
  have hnodup : (sortedSet xs).Nodup := (List.perm_insertionSort _ _).nodup_iff.mpr (List.nodup_dedup xs)
  have hsorted : (sortedSet xs).Pairwise (· ≤ ·) := List.pairwise_insertionSort _ _
  calc sortedSet (sortedSet xs) = (sortedSet xs).insertionSort (· ≤ ·) := by
        rw [sortedSet, List.dedup_eq_self.mpr hnodup]
    _ = sortedSet xs := hsorted.insertionSort_eq

theorem filterMap_slot_firsts {key : String → String} {choices : List String} {places : List Nat}
    (h : ∀ n ∈ places, n < (firsts key choices).length) :
    (places.map Int.ofNat).filterMap (slot key (firsts key choices)) = places := by
  induction places with
  | nil => rfl
  | cons n places ih =>
    rw [List.forall_mem_cons] at h
    have hn : slot key (firsts key choices) (Int.ofNat n) = some n := slot_firsts key h.1
    rw [List.map_cons, List.filterMap_cons, hn, ih h.2]

theorem firsts_ne_nil {key : String → String} {choices : List String} (h : choices ≠ []) :
    firsts key choices ≠ [] := by
  cases choices with
  | nil => exact h
  | cons a choices => exact List.cons_ne_nil _ _

/-- **Idempotence.** -/
theorem dedupChoices_idem (lower : String → String) (q : QuizQuestion) :
    dedupChoices lower (dedupChoices lower q) = dedupChoices lower q := by
  by_cases hsame : q.type = .openAnswer ∨ q.choices = []
  · have hself : dedupChoices lower q = q := if_pos hsame
    rw [hself, hself]
  · rw [not_or] at hsame
    have hq := dedupChoices_eq lower hsame.1 hsame.2
    have hlt : ∀ {i n}, slot (choiceKey lower) q.choices i = some n → n < (firsts (choiceKey lower) q.choices).length :=
      slot_lt _
    rw [hq]
    refine (dedupChoices_eq lower ?_ ?_).trans ?_
    · exact hsame.1
    · exact firsts_ne_nil hsame.2
    congr 1
    · exact firsts_firsts _ _
    · cases hi : q.answerIdx.bind (slot (choiceKey lower) q.choices) with
      | none => rfl
      | some n =>
        obtain ⟨i, -, hn⟩ := Option.bind_eq_some_iff.mp hi
        have hslot : slot (choiceKey lower) (firsts (choiceKey lower) q.choices) (Int.ofNat n) = some n :=
          slot_firsts _ (hlt hn)
        simp only [Option.map_some, Option.bind_some, hslot]
    · cases q.answerIndices with
      | none => rfl
      | some indices =>
        simp only [Option.map_some]
        rw [filterMap_slot_firsts fun n hn => ?_, sortedSet_sortedSet]
        obtain ⟨i, -, hslot⟩ := List.mem_filterMap.mp (mem_sortedSet.mp hn)
        exact hlt hslot

/-! ## The answer key -/

/-- The choices that the question calls right. -/
def answers (q : QuizQuestion) : List String :=
  match q.type with
  | .openAnswer => []
  | .singleChoice => (q.answerIdx.bind (itemAt q.choices)).toList
  | .multiChoice => (q.answerIndices.getD []).filterMap (itemAt q.choices)

theorem inRange_iff {choices : List String} {i : Int} :
    inRange choices i = true ↔ (slot (choiceKey lower) choices i).isSome := by
  rw [slot_isSome, inRange, decide_eq_true_eq]

theorem wellFormed_single {q : QuizQuestion} (h : q.type = .singleChoice) :
    isWellFormed q = true ↔ strip q.question.toList ≠ [] ∧ 2 ≤ q.choices.length ∧
      ∃ i ∈ q.answerIdx, inRange q.choices i = true := by
  unfold isWellFormed
  rw [h]
  split
  · rename_i hs; simp [hs]
  · rename_i hs; simp [hs, Option.any_eq_true]

theorem wellFormed_multi {q : QuizQuestion} (h : q.type = .multiChoice) :
    isWellFormed q = true ↔ strip q.question.toList ≠ [] ∧ 2 ≤ q.choices.length ∧
      q.answerIndices.getD [] ≠ [] ∧ ∀ i ∈ q.answerIndices.getD [], inRange q.choices i = true := by
  unfold isWellFormed
  rw [h]
  split
  · rename_i hs; simp [hs]
  · rename_i hs; simp [hs, and_assoc]

/-- The question after the pass, field by field. -/
theorem dedup_single (lower : String → String) {q : QuizQuestion} (h : q.type = .singleChoice) (hne : q.choices ≠ []) :
    (dedupChoices lower q).type = .singleChoice ∧ (dedupChoices lower q).question = q.question ∧
      (dedupChoices lower q).choices = firsts (choiceKey lower) q.choices ∧
      (dedupChoices lower q).answerIdx = (q.answerIdx.bind (slot (choiceKey lower) q.choices)).map Int.ofNat := by
  rw [dedupChoices_eq lower (by rw [h]; decide) hne]
  exact ⟨h, rfl, rfl, rfl⟩

theorem dedup_multi (lower : String → String) {q : QuizQuestion} (h : q.type = .multiChoice) (hne : q.choices ≠ []) :
    (dedupChoices lower q).type = .multiChoice ∧ (dedupChoices lower q).question = q.question ∧
      (dedupChoices lower q).choices = firsts (choiceKey lower) q.choices ∧
      ∀ i, i ∈ (dedupChoices lower q).answerIndices.getD [] ↔
        ∃ old ∈ q.answerIndices.getD [], ∃ n, slot (choiceKey lower) q.choices old = some n ∧ i = Int.ofNat n := by
  rw [dedupChoices_eq lower (by rw [h]; decide) hne]
  refine ⟨h, rfl, rfl, fun i => ?_⟩
  cases q.answerIndices with
  | none => simp
  | some indices =>
    simp only [Option.map_some, Option.getD_some, List.mem_map, mem_sortedSet, List.mem_filterMap]
    constructor
    · rintro ⟨n, ⟨old, hold, hn⟩, rfl⟩; exact ⟨old, hold, n, hn, rfl⟩
    · rintro ⟨old, hold, n, hn, rfl⟩; exact ⟨n, ⟨old, hold, hn⟩, rfl⟩

theorem inRange_slot {choices : List String} {i : Int} {n : Nat}
    (h : slot (choiceKey lower) choices i = some n) :
    inRange (firsts (choiceKey lower) choices) (Int.ofNat n) = true := by
  have hlt := slot_lt _ h
  rw [inRange, decide_eq_true_eq]
  exact ⟨Int.natCast_nonneg n, Int.ofNat_lt.mpr hlt⟩

/-- **When the question is well formed after the pass.** An index that is out of range
makes a single choice ill-formed and is left out of a multiple choice. -/
theorem wellFormed_dedup_single {q : QuizQuestion} (h : q.type = .singleChoice) (hne : q.choices ≠ []) :
    isWellFormed (dedupChoices lower q) = true ↔ strip q.question.toList ≠ [] ∧
      2 ≤ (firsts (choiceKey lower) q.choices).length ∧ ∃ i ∈ q.answerIdx, inRange q.choices i = true := by
  obtain ⟨htype, hquestion, hchoices, hidx⟩ := dedup_single lower h hne
  rw [wellFormed_single htype, hquestion, hchoices, hidx]
  refine and_congr_right fun _ => and_congr_right fun _ => ?_
  constructor
  · rintro ⟨i, hi, -⟩
    obtain ⟨n, hn, rfl⟩ := Option.map_eq_some_iff.mp hi
    obtain ⟨old, hold, hslot⟩ := Option.bind_eq_some_iff.mp hn
    exact ⟨old, hold, inRange_iff.mpr (by rw [hslot]; rfl)⟩
  · rintro ⟨old, hold, hin⟩
    obtain ⟨n, hslot⟩ := Option.isSome_iff_exists.mp (inRange_iff.mp hin)
    refine ⟨Int.ofNat n, ?_, inRange_slot hslot⟩
    rw [hold, Option.bind_some, hslot]
    rfl

theorem wellFormed_dedup_multi {q : QuizQuestion} (h : q.type = .multiChoice) (hne : q.choices ≠ []) :
    isWellFormed (dedupChoices lower q) = true ↔ strip q.question.toList ≠ [] ∧
      2 ≤ (firsts (choiceKey lower) q.choices).length ∧
      ∃ i ∈ q.answerIndices.getD [], inRange q.choices i = true := by
  obtain ⟨htype, hquestion, hchoices, hidx⟩ := dedup_multi lower h hne
  rw [wellFormed_multi htype, hquestion, hchoices]
  refine and_congr_right fun _ => and_congr_right fun _ => ?_
  constructor
  · rintro ⟨hne', -⟩
    obtain ⟨i, hi⟩ := List.exists_mem_of_ne_nil _ hne'
    obtain ⟨old, hold, n, hslot, -⟩ := (hidx i).mp hi
    exact ⟨old, hold, inRange_iff.mpr (by rw [hslot]; rfl)⟩
  · rintro ⟨old, hold, hin⟩
    obtain ⟨n, hslot⟩ := Option.isSome_iff_exists.mp (inRange_iff.mp hin)
    refine ⟨List.ne_nil_of_mem ((hidx _).mpr ⟨old, hold, n, hslot, rfl⟩), fun i hi => ?_⟩
    obtain ⟨_, -, m, hm, rfl⟩ := (hidx i).mp hi
    exact inRange_slot hm

theorem itemAt_of_slot {key : String → String} {choices : List String} {i : Int} {n : Nat}
    (h : slot key choices i = some n) :
    ∃ a b, itemAt choices i = some a ∧ itemAt (firsts key choices) (Int.ofNat n) = some b ∧ key b = key a := by
  cases hi : itemAt choices i with
  | none => rw [slot, hi] at h; cases h
  | some a =>
    obtain ⟨m, b, hm, hb, hkey⟩ := slot_key key hi
    cases h.symm.trans hm
    exact ⟨a, b, rfl, (itemAt_natCast _ n).trans hb, hkey⟩

/-- The right text of a single choice stays. -/
theorem answers_dedup_single {q : QuizQuestion} (h : q.type = .singleChoice) (hne : q.choices ≠ []) :
    (answers (dedupChoices lower q)).map (choiceKey lower) = (answers q).map (choiceKey lower) := by
  obtain ⟨htype, -, hchoices, hidx⟩ := dedup_single lower h hne
  simp only [answers, htype, h, hchoices, hidx]
  cases hans : q.answerIdx with
  | none => rfl
  | some i =>
    simp only [Option.bind_some]
    cases hslot : slot (choiceKey lower) q.choices i with
    | none =>
      have hnone : itemAt q.choices i = none := by
        by_contra hsome
        obtain ⟨a, ha⟩ := Option.ne_none_iff_exists'.mp hsome
        obtain ⟨n, -, hn, -⟩ := slot_key (choiceKey lower) ha
        rw [hslot] at hn; cases hn
      rw [hnone]
      rfl
    | some n =>
      obtain ⟨a, b, ha, hb, hkey⟩ := itemAt_of_slot hslot
      simp only [Option.map_some, Option.bind_some, ha, hb, Option.toList_some, List.map_cons, List.map_nil, hkey]

/-- The right texts of a multiple choice stay, each maybe in another spelling. -/
theorem answers_dedup_multi {q : QuizQuestion} (h : q.type = .multiChoice) (hne : q.choices ≠ []) (text : String) :
    text ∈ (answers (dedupChoices lower q)).map (choiceKey lower) ↔ text ∈ (answers q).map (choiceKey lower) := by
  obtain ⟨htype, -, hchoices, hidx⟩ := dedup_multi lower h hne
  simp only [answers, htype, h, hchoices, List.mem_map, List.mem_filterMap]
  constructor
  · rintro ⟨b, ⟨i, hi, hb⟩, rfl⟩
    obtain ⟨old, hold, n, hslot, rfl⟩ := (hidx i).mp hi
    obtain ⟨a, b', ha, hb', hkey⟩ := itemAt_of_slot hslot
    cases hb.symm.trans hb'
    exact ⟨a, ⟨old, hold, ha⟩, hkey.symm⟩
  · rintro ⟨a, ⟨old, hold, ha⟩, rfl⟩
    obtain ⟨n, b, hslot, hb, hkey⟩ := slot_key (choiceKey lower) ha
    exact ⟨b, ⟨Int.ofNat n, (hidx _).mpr ⟨old, hold, n, hslot, rfl⟩, (itemAt_natCast _ n).trans hb⟩, hkey⟩

/-- **De-duplication keeps the answer key.** -/
theorem dedup_keeps_key (lower : String → String) {q : QuizQuestion} (htype : q.type ≠ .openAnswer)
    (hwf : isWellFormed q = true)
    (htwo : ∃ a ∈ q.choices, ∃ b ∈ q.choices, choiceKey lower a ≠ choiceKey lower b) :
    isWellFormed (dedupChoices lower q) = true ∧
      (dedupChoices lower q).choices = firsts (choiceKey lower) q.choices ∧
      ((dedupChoices lower q).choices.map (choiceKey lower)).Nodup ∧
      (q.type = .singleChoice → ∃ text, (answers q).map (choiceKey lower) = [text] ∧
        (answers (dedupChoices lower q)).map (choiceKey lower) = [text]) ∧
      (∀ text, text ∈ (answers (dedupChoices lower q)).map (choiceKey lower) ↔
        text ∈ (answers q).map (choiceKey lower)) ∧
      dedupChoices lower (dedupChoices lower q) = dedupChoices lower q := by
  have hlen := (two_le_firsts (choiceKey lower)).mpr htwo
  obtain ⟨a, ha, -⟩ := htwo
  have hne : q.choices ≠ [] := List.ne_nil_of_mem ha
  have hchoices : (dedupChoices lower q).choices = firsts (choiceKey lower) q.choices := by
    rw [dedupChoices_eq lower htype hne]
  have hnodup : ((dedupChoices lower q).choices.map (choiceKey lower)).Nodup := by
    rw [hchoices]
    exact nodup_firsts _ _
  refine ⟨?_, hchoices, hnodup, fun hsingle => ?_, ?_, dedupChoices_idem lower q⟩
  · cases hq : q.type with
    | openAnswer => exact absurd hq htype
    | singleChoice =>
      obtain ⟨hstem, -, hin⟩ := (wellFormed_single hq).mp hwf
      exact (wellFormed_dedup_single hq hne).mpr ⟨hstem, hlen, hin⟩
    | multiChoice =>
      obtain ⟨hstem, -, hsome, hin⟩ := (wellFormed_multi hq).mp hwf
      obtain ⟨i, hi⟩ := List.exists_mem_of_ne_nil _ hsome
      exact (wellFormed_dedup_multi hq hne).mpr ⟨hstem, hlen, i, hi, hin i hi⟩
  · obtain ⟨-, -, i, hi, hin⟩ := (wellFormed_single hsingle).mp hwf
    obtain ⟨b, hb⟩ := Option.isSome_iff_exists.mp (itemAt_isSome.mpr (of_decide_eq_true hin))
    have htext : (answers q).map (choiceKey lower) = [choiceKey lower b] := by
      simp only [answers, hsingle, Option.mem_def.mp hi, Option.bind_some, hb, Option.toList_some, List.map_cons,
        List.map_nil]
    exact ⟨_, htext, (answers_dedup_single hsingle hne).trans htext⟩
  · cases hq : q.type with
    | openAnswer => exact absurd hq htype
    | singleChoice => intro text; rw [answers_dedup_single hq hne]
    | multiChoice => exact answers_dedup_multi hq hne

/-- A question that repeats its right choice. -/
def repeating : QuizQuestion where
  question := "Which of these is even?"
  type := .singleChoice
  choices := ["2", "3", " 2"]
  answerIdx := some 2

theorem dedup_keeps_key_repeating : isWellFormed repeating = true ∧
    isWellFormed (dedupChoices id repeating) = true ∧
    (dedupChoices id repeating).choices = firsts (choiceKey id) repeating.choices := by
  have hwf : isWellFormed repeating = true := by decide
  have h := dedup_keeps_key id (q := repeating) (by decide) hwf ⟨"2", by decide, "3", by decide, by decide⟩
  exact ⟨hwf, h.1, h.2.1⟩

end MasResearch.L2
