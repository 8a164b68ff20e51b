import Mathlib.Data.List.MinMax
import MasResearch.Core.Rates
import MasResearch.L2Agents.Grounds
import MasResearch.L2Evaluation.Intrinsic

/-!
# Intrinsic metrics (`evaluation/intrinsic.py`, `evaluation/run.py`): an artifact's payload

What the harness measures of each part of a payload that was read back as JSON. The parts may be
any values; on a part that is none of those it knows it raises. Its figures are floats.

* `summaryIntrinsics_dump`, `termsIntrinsics_dump`, `quizIntrinsics_dump`,
  `citationsIntrinsics_dump`: what it measures of dumps.
* `intrinsics_measure`: what it measures of a payload of the quality that the agents promise.
-/
namespace MasResearch.L2.Intrinsic

open MasResearch.L1

/-! ## The functions -/

/-- `str`, `int` and `float` of values, `str.lower`, and the floats. -/
structure Python where
  env : Env
  lower : String → String
  toFloat : Value → Except PyError ℚ
  floats : Floats

/-- A value whose `get` is called. -/
def attributes : Value → Except PyError Content
  | .dict entries => .ok entries
  -- an AttributeError
  | _ => .error .external

/-- `float(value)`. -/
def Python.float (py : Python) : Value → Except PyError ℚ
  | .float q => .ok (py.floats.nearest q)
  | .int n => .ok (py.floats.nearest n)
  | v => py.toFloat v

/-- `round(x / n, 4)`. -/
def Python.ratio (py : Python) (x : ℚ) (n : Nat) : ℚ := py.floats.round 4 (py.floats.nearest (x / n))

/-- mirrors src/evaluation/intrinsic.py:18-23 -/
structure SummaryIntrinsics where
  sectionCount : Nat := 0
  sectionsPresent : List String := []
  summaryChars : Nat := 0
  compressionRatio : ℚ := 0

/-- mirrors src/evaluation/intrinsic.py:33-38 -/
structure TermsIntrinsics where
  count : Nat := 0
  inSourceFraction : ℚ := 0
  categoryDistribution : Dict String Nat := ∅
  avgFrequency : ℚ := 0

/-- mirrors src/evaluation/intrinsic.py:64-69 -/
structure QuizIntrinsics where
  count : Nat := 0
  typeDistribution : Dict String Nat := ∅
  wellFormedCount : Nat := 0
  wellFormedFraction : ℚ := 0

/-- mirrors src/evaluation/intrinsic.py:76-81 -/
structure CitationsIntrinsics where
  count : Nat := 0
  meanRelevance : ℚ := 0
  minRelevance : ℚ := 0
  maxRelevance : ℚ := 0

/-- mirrors src/evaluation/intrinsic.py:11-23 -/
def summaryIntrinsics (py : Python) (summary : Value) (sourceChars : Nat) : Except PyError SummaryIntrinsics :=
  if ¬ Value.truthy summary then .ok {}
  else do
    let sections ← items (orElse (getValue (← attributes summary) "sections") (.list []))
    let dicts := sections.filterMap Value.asDict
    let summaryChars := (dicts.map fun s => (py.env.str ((s.get? "text").getD (.str ""))).length).sum
    return {
      sectionCount := sections.length
      sectionsPresent := (dicts.filter fun s => Value.truthy (getValue s "type")).map fun s =>
        py.env.str (getValue s "type")
      summaryChars := summaryChars
      compressionRatio := if 0 < sourceChars then py.ratio summaryChars sourceChars else 0 }

/-- mirrors src/evaluation/intrinsic.py:26-38 -/
def termsIntrinsics (py : Python) (terms : Value) (sourceText : String) : Except PyError TermsIntrinsics :=
  if ¬ Value.truthy terms then .ok {}
  else do
    let terms ← (← items terms).mapM attributes
    let haystack := (py.lower sourceText).toList
    let inSource := terms.countP fun t => (py.lower (py.env.str ((t.get? "term").getD (.str "")))).toList <:+: haystack
    let freqs ← terms.mapM fun t => py.env.int (orElse ((t.get? "frequency").getD (.int 0)) (.int 0))
    return {
      count := terms.length
      inSourceFraction := py.ratio inSource terms.length
      categoryDistribution := counter (terms.map fun t => py.env.str ((t.get? "category").getD (.str "")))
      avgFrequency := py.ratio (freqs.sum : Int) freqs.length }

/-- mirrors src/evaluation/intrinsic.py:59-69 -/
def quizIntrinsics (py : Python) (quiz : Value) : Except PyError QuizIntrinsics :=
  if ¬ Value.truthy quiz then .ok {}
  else do
    let quiz ← (← items quiz).mapM attributes
    let wellFormed ← wellFormedCount py.env quiz
    return {
      count := quiz.length
      typeDistribution := counter (quiz.map fun q => py.env.str ((q.get? "type").getD (.str "")))
      wellFormedCount := wellFormed
      wellFormedFraction := py.ratio wellFormed quiz.length }

/-- mirrors src/evaluation/intrinsic.py:72-81 -/
def citationsIntrinsics (py : Python) (citations : Value) : Except PyError CitationsIntrinsics :=
  if ¬ Value.truthy citations then .ok {}
  else do
    let citations ← (← items citations).mapM attributes
    let scores ← citations.mapM fun c =>
      py.float (orElse ((c.get? "relevance_score").getD (.float 0)) (.float 0))
    return {
      count := citations.length
      meanRelevance := py.floats.round 4 (py.floats.mean scores)
      minRelevance := py.floats.round 4 (scores.min?.getD 0)
      maxRelevance := py.floats.round 4 (scores.max?.getD 0) }

structure Intrinsics where
  summary : SummaryIntrinsics
  terms : TermsIntrinsics
  quiz : QuizIntrinsics
  citations : CitationsIntrinsics

/-- mirrors src/evaluation/run.py:60-65 -/
def intrinsics (py : Python) (result : Content) (sourceText : String) : Except PyError Intrinsics := do
  return {
    summary := ← summaryIntrinsics py (getValue result "summary") sourceText.length
    terms := ← termsIntrinsics py ((result.get? "terms").getD (.list [])) sourceText
    quiz := ← quizIntrinsics py ((result.get? "quiz").getD (.list []))
    citations := ← citationsIntrinsics py ((result.get? "citations").getD (.list [])) }

/-- `payload.model_dump()`.
mirrors the fields of src/core/schemas.py:164-167 -/
def payloadDump (p : ResultPayload) : Content :=
  [("summary", orNone (fun s => .dict (summaryDump s)) p.summary), ("terms", .list (p.terms.map termDump)),
    ("quiz", .list (p.quiz.map questionDump)), ("citations", .list (p.citations.map citationDump))]

/-- The ratio of a part to its whole. -/
theorem Python.ratio_unit (py : Python) {k n : Nat} (h : k ≤ n) : 0 ≤ py.ratio k n ∧ py.ratio k n ≤ 1 := by
  have hlow := py.floats.le_round 4 (n := 0) (by norm_num) (x := (k : ℚ) / n) (by rw [Int.cast_zero]; positivity)
  have hhigh := py.floats.round_le 4 (n := 1) (by norm_num) (x := (k : ℚ) / n)
    (by rw [Int.cast_one]; exact div_le_one_of_le₀ (by exact_mod_cast h) (Nat.cast_nonneg n))
  exact ⟨by exact_mod_cast hlow, by exact_mod_cast hhigh⟩

/-! ## Dumped parts -/

theorem orElse_int (n : Int) : orElse (.int n) (.int 0) = .int n := by
  rw [orElse]
  split_ifs with h
  · rfl
  · simp only [Value.truthy, decide_eq_true_eq, not_not] at h
    rw [h]

theorem orElse_float (q : ℚ) : orElse (.float q) (.float 0) = .float q := by
  rw [orElse]
  split_ifs with h
  · rfl
  · simp only [Value.truthy, decide_eq_true_eq, not_not] at h
    rw [h]

/-- The entries of a dumped thing. -/
def dictOf (item : Value) : Content := (Value.asDict item).getD []

theorem attributes_dumps {α : Type} (dump : α → Value) (hd : ∀ x, attributes (dump x) = .ok (dictOf (dump x)))
    (xs : List α) : (xs.map dump).mapM attributes = .ok (xs.map fun x => dictOf (dump x)) := by
  rw [List.mapM_map]
  exact mapM_ok fun x _ => hd x

theorem not_falsy_list {xs : List Value} (h : xs ≠ []) : ¬ ¬ Value.truthy (.list xs) = true :=
  not_not.mpr ((truthy_list xs).mpr h)

theorem summaryIntrinsics_dump (py : Python) (s : Summary) (sourceChars : Nat) :
    summaryIntrinsics py (.dict (summaryDump s)) sourceChars = .ok
      { sectionCount := s.sections.length
        sectionsPresent := s.sections.map fun part => SectionType.value part.type
        summaryChars := (s.sections.map fun part => part.text.length).sum
        compressionRatio := if 0 < sourceChars
          then py.ratio ((s.sections.map fun part => part.text.length).sum : Nat) sourceChars else 0 } := by
  have hsections : getValue (summaryDump s) "sections" = .list (s.sections.map sectionDump) := rfl
  have hdicts : (s.sections.map sectionDump).filterMap Value.asDict =
      s.sections.map fun part => dictOf (sectionDump part) := by
    rw [List.filterMap_map]
    exact List.filterMap_eq_map_iff_forall_eq_some.mpr fun _ _ => rfl
  have htype : ∀ part : SummarySection, Value.truthy (getValue (dictOf (sectionDump part)) "type") = true := by
    rintro ⟨type, text⟩
    cases type <;> rfl
  have hall : (s.sections.map fun part => dictOf (sectionDump part)).filter
      (fun d => Value.truthy (getValue d "type")) = s.sections.map fun part => dictOf (sectionDump part) := by
    refine List.filter_eq_self.mpr fun d hd => ?_
    obtain ⟨part, -, rfl⟩ := List.mem_map.mp hd
    exact htype part
  have hsome : Value.truthy (.dict (summaryDump s)) = true := rfl
  rw [summaryIntrinsics, if_neg (not_not.mpr hsome)]
  simp only [attributes, bind, Except.bind, hsections, orElse_list, items, hdicts, hall, List.length_map, List.map_map]
  rfl

theorem termsIntrinsics_dump (py : Python) {terms : List Term} (hne : terms ≠ []) (sourceText : String) :
    termsIntrinsics py (.list (terms.map termDump)) sourceText = .ok
      { count := terms.length
        inSourceFraction := py.ratio (terms.countP fun t =>
          (py.lower t.term).toList <:+: (py.lower sourceText).toList : Nat) terms.length
        categoryDistribution := counter (terms.map (·.category))
        avgFrequency := py.ratio ((terms.map (·.frequency)).sum : Int) terms.length } := by
  have hfreqs : (terms.map fun t => dictOf (termDump t)).mapM
      (fun t => py.env.int (orElse ((t.get? "frequency").getD (.int 0)) (.int 0))) =
        .ok (terms.map (·.frequency)) := by
    rw [List.mapM_map]
    refine mapM_ok fun t _ => ?_
    show py.env.int (orElse (.int t.frequency) (.int 0)) = _
    rw [orElse_int]
    rfl
  rw [termsIntrinsics, if_neg (not_falsy_list (by simpa using hne))]
  simp only [items, bind, Except.bind, attributes_dumps termDump fun _ => rfl, hfreqs, List.length_map,
    List.map_map, List.countP_map]
  rfl

/-- What the agent keeps the harness counts. -/
theorem isWellFormed_dump (env : Env) {q : QuizQuestion} (h : L2.isWellFormed q = true) :
    isWellFormed env (modelDump q) = .ok true := by
  cases ht : q.type with
  | openAnswer =>
    rw [isWellFormed_open env ht]
    unfold L2.isWellFormed at h
    split at h
    · cases h
    · rename_i hs
      rw [decide_eq_true hs]
  | singleChoice =>
    obtain ⟨-, hlen, hidx⟩ := (wellFormed_single ht).mp h
    rw [isWellFormed_single env ht, decide_eq_true ⟨hlen, (Option.any_eq_true ..).mpr hidx⟩]
  | multiChoice =>
    obtain ⟨-, hlen, hne, hall⟩ := (wellFormed_multi ht).mp h
    rw [isWellFormed_multi env ht, decide_eq_true ⟨hlen, hne, List.all_eq_true.mpr hall⟩]

theorem quizIntrinsics_dump (py : Python) {quiz : List QuizQuestion} (hne : quiz ≠ [])
    (hwf : ∀ q ∈ quiz, L2.isWellFormed q = true) :
    quizIntrinsics py (.list (quiz.map questionDump)) = .ok
      { count := quiz.length
        typeDistribution := counter (quiz.map fun q => QuestionType.value q.type)
        wellFormedCount := quiz.length
        wellFormedFraction := 1 } := by
  have hcount : wellFormedCount py.env (quiz.map fun q => dictOf (questionDump q)) = .ok quiz.length := by
    have hverdicts : (quiz.map fun q => dictOf (questionDump q)).mapM (isWellFormed py.env) =
        .ok (quiz.map fun _ => true) := by
      rw [List.mapM_map]
      exact mapM_ok fun q hq => isWellFormed_dump py.env (hwf q hq)
    rw [wellFormedCount, hverdicts]
    show Except.ok ((quiz.map fun _ => true).count true) = _
    rw [List.map_const', List.count_replicate_self]
  have hpos : (quiz.length : ℚ) ≠ 0 := by
    rw [Nat.cast_ne_zero]
    exact fun h => hne (List.length_eq_zero_iff.mp h)
  have hone : py.ratio quiz.length quiz.length = 1 := by
    have hnearest : py.floats.nearest 1 = 1 := by exact_mod_cast py.floats.nearest_intCast 1 (by norm_num)
    rw [Python.ratio, div_self hpos, hnearest]
    exact_mod_cast py.floats.round_intCast 4 (n := 1) (by norm_num)
  rw [quizIntrinsics, if_neg (not_falsy_list (by simpa using hne))]
  simp only [items, bind, Except.bind, attributes_dumps questionDump fun _ => rfl, hcount, List.length_map,
    List.map_map, hone]
  rfl

theorem citationsIntrinsics_dump (py : Python) {citations : List Citation} (hne : citations ≠ []) :
    citationsIntrinsics py (.list (citations.map citationDump)) = .ok
      { count := citations.length
        meanRelevance := py.floats.round 4
          (py.floats.mean ((citations.map (·.relevanceScore)).map py.floats.nearest))
        minRelevance := py.floats.round 4
          (((citations.map (·.relevanceScore)).map py.floats.nearest).min?.getD 0)
        maxRelevance := py.floats.round 4
          (((citations.map (·.relevanceScore)).map py.floats.nearest).max?.getD 0) } := by
  have hscores : (citations.map fun c => dictOf (citationDump c)).mapM
      (fun c => py.float (orElse ((c.get? "relevance_score").getD (.float 0)) (.float 0))) =
        .ok ((citations.map (·.relevanceScore)).map py.floats.nearest) := by
    rw [List.mapM_map, List.map_map]
    refine mapM_ok fun c _ => ?_
    show py.float (orElse (.float c.relevanceScore) (.float 0)) = _
    rw [orElse_float]
    rfl
  rw [citationsIntrinsics, if_neg (not_falsy_list (by simpa using hne))]
  simp only [items, bind, Except.bind, attributes_dumps citationDump fun _ => rfl, hscores, List.length_map]
  rfl

/-! ## Payloads -/

/-- What the harness says of a payload. -/
structure Measures (p : ResultPayload) (m : Intrinsics) : Prop where
  sections : m.summary.sectionsPresent =
    if p.summary.isSome then ["introduction", "thesis", "conclusion"] else []
  sectionCount : m.summary.sectionCount = m.summary.sectionsPresent.length
  terms : m.terms.count = p.terms.length
  inSource : 0 ≤ m.terms.inSourceFraction ∧ m.terms.inSourceFraction ≤ 1
  categories : ∀ category, m.terms.categoryDistribution.getD category 0 = (p.terms.map (·.category)).count category
  frequency : p.terms ≠ [] → 1 ≤ m.terms.avgFrequency
  quiz : m.quiz.count = p.quiz.length
  types : ∀ type, m.quiz.typeDistribution.getD type 0 = (p.quiz.map fun q => QuestionType.value q.type).count type
  wellFormed : m.quiz.wellFormedCount = p.quiz.length ∧ (p.quiz ≠ [] → m.quiz.wellFormedFraction = 1)
  citations : m.citations.count = p.citations.length
  relevance : m.citations.minRelevance ≤ m.citations.maxRelevance
  mean : p.citations.length ≤ 2 ^ 20 → (∀ c ∈ p.citations, |c.relevanceScore| ≤ 1) →
    m.citations.minRelevance ≤ m.citations.meanRelevance ∧ m.citations.meanRelevance ≤ m.citations.maxRelevance

section

variable {κ σ : Type} {w : Workers κ σ} {p : ResultPayload}

theorem summaryIntrinsics_part (py : Python) (hq : ∀ s ∈ p.summary, w.quality.summary s) (sourceChars : Nat) :
    ∃ m, summaryIntrinsics py (orNone (fun s => .dict (summaryDump s)) p.summary) sourceChars = .ok m ∧
      m.sectionsPresent = (if p.summary.isSome then ["introduction", "thesis", "conclusion"] else []) ∧
      m.sectionCount = m.sectionsPresent.length := by
  cases hs : p.summary with
  | none => exact ⟨{}, rfl, rfl, rfl⟩
  | some s =>
    refine ⟨_, summaryIntrinsics_dump py s sourceChars, ?_, (List.length_map _).symm⟩
    have htypes : s.sections.map (·.type) = [.introduction, .thesis, .conclusion] := hq s hs
    show (s.sections.map fun part => SectionType.value part.type) = _
    rw [show (fun part : SummarySection => SectionType.value part.type) = SectionType.value ∘ (·.type) from rfl,
      ← List.map_map, htypes]
    rfl

theorem termsIntrinsics_part (py : Python) (hq : ∀ t ∈ p.terms, w.quality.term t) (sourceText : String) :
    ∃ m, termsIntrinsics py (.list (p.terms.map termDump)) sourceText = .ok m ∧ m.count = p.terms.length ∧
      (0 ≤ m.inSourceFraction ∧ m.inSourceFraction ≤ 1) ∧
      (∀ category, m.categoryDistribution.getD category 0 = (p.terms.map (·.category)).count category) ∧
      (p.terms ≠ [] → 1 ≤ m.avgFrequency) := by
  by_cases hne : p.terms = []
  · rw [hne]
    exact ⟨{}, rfl, rfl, ⟨le_rfl, zero_le_one⟩, fun _ => rfl, fun h => absurd rfl h⟩
  refine ⟨_, termsIntrinsics_dump py hne sourceText, rfl, ?_, fun category => getD_counter _ category, fun _ => ?_⟩
  · exact py.ratio_unit List.countP_le_length
  · have hsum := List.card_nsmul_le_sum (p.terms.map (·.frequency)) 1 fun n hn => by
      obtain ⟨t, ht, rfl⟩ := List.mem_map.mp hn
      exact (hq t ht).2.1
    rw [List.length_map, nsmul_eq_mul, mul_one] at hsum
    have hmean : ((1 : Int) : ℚ) ≤ ((p.terms.map (·.frequency)).sum : Int) / p.terms.length := by
      rw [Int.cast_one, one_le_div (by exact_mod_cast List.length_pos_of_ne_nil hne)]
      exact_mod_cast hsum
    have hround := py.floats.le_round 4 (n := 1) (by norm_num) hmean
    rw [Int.cast_one] at hround
    exact hround

theorem quizIntrinsics_part (py : Python) (hq : ∀ q ∈ p.quiz, w.quality.question q) :
    ∃ m, quizIntrinsics py (.list (p.quiz.map questionDump)) = .ok m ∧ m.count = p.quiz.length ∧
      (∀ type, m.typeDistribution.getD type 0 = (p.quiz.map fun q => QuestionType.value q.type).count type) ∧
      m.wellFormedCount = p.quiz.length ∧ (p.quiz ≠ [] → m.wellFormedFraction = 1) := by
  by_cases hne : p.quiz = []
  · rw [hne]
    exact ⟨{}, rfl, rfl, fun _ => rfl, rfl, fun h => absurd rfl h⟩
  exact ⟨_, quizIntrinsics_dump py hne hq, rfl, fun type => getD_counter _ type, rfl, fun _ => rfl⟩

theorem citationsIntrinsics_part (py : Python) (hq : ∀ c ∈ p.citations, w.quality.citation c) :
    ∃ m, citationsIntrinsics py (.list (p.citations.map citationDump)) = .ok m ∧ m.count = p.citations.length ∧
      m.minRelevance ≤ m.maxRelevance ∧
      (p.citations.length ≤ 2 ^ 20 → (∀ c ∈ p.citations, |c.relevanceScore| ≤ 1) →
        m.minRelevance ≤ m.meanRelevance ∧ m.meanRelevance ≤ m.maxRelevance) := by
  by_cases hne : p.citations = []
  · rw [hne]
    exact ⟨{}, rfl, rfl, le_rfl, fun _ _ => ⟨le_rfl, le_rfl⟩⟩
  have hscores : p.citations.map (·.relevanceScore) ≠ [] := by simpa using hne
  refine ⟨_, citationsIntrinsics_dump py hne, rfl, ?_, fun hlen hunit => ?_⟩
  · have hmap : (p.citations.map (·.relevanceScore)).map py.floats.nearest ≠ [] := by simpa using hne
    rw [List.min?_eq_some_min hmap, List.max?_eq_some_max hmap]
    exact py.floats.round_mono 4 (List.min_le_of_mem (List.max_mem hmap))
  · have hdecimal : ∀ q ∈ p.citations.map (·.relevanceScore), IsDecimal 4 q ∧ |q| ≤ 1 := by
      intro q hmem
      obtain ⟨c, hc, rfl⟩ := List.mem_map.mp hmem
      obtain ⟨entry, -, score, rfl⟩ := hq c hc
      exact ⟨isDecimal_roundTo 4 score, hunit _ hc⟩
    have hlen' : (p.citations.map (·.relevanceScore)).length ≤ 2 ^ 20 := by rwa [List.length_map]
    exact ⟨py.floats.least_le_mean hscores hlen' hdecimal, py.floats.mean_le_greatest hscores hlen' hdecimal⟩

/-- **The harness measures every payload** of the quality that the agents promise. -/
theorem intrinsics_measure (py : Python) (h : Meets w.quality p) (sourceText : String) :
    ∃ m, intrinsics py (payloadDump p) sourceText = .ok m ∧ Measures p m := by
  obtain ⟨summary, hsummary, hpresent, hcount⟩ := summaryIntrinsics_part py h.summary sourceText.length
  obtain ⟨terms, hterms, hlen, hsource, hcategories, hfrequency⟩ := termsIntrinsics_part py h.terms sourceText
  obtain ⟨quiz, hquiz, hquestions, htypes, hformed⟩ := quizIntrinsics_part py h.quiz
  obtain ⟨citations, hcitations, hcited, hrelevance, hmean⟩ := citationsIntrinsics_part py h.citations
  refine ⟨⟨summary, terms, quiz, citations⟩, ?_, ⟨hpresent, hcount, hlen, hsource, hcategories, hfrequency, hquestions,
    htypes, hformed, hcited, hrelevance, hmean⟩⟩
  have hbody : intrinsics py (payloadDump p) sourceText = (do
      return {
        summary := ← summaryIntrinsics py (orNone (fun s => .dict (summaryDump s)) p.summary) sourceText.length
        terms := ← termsIntrinsics py (.list (p.terms.map termDump)) sourceText
        quiz := ← quizIntrinsics py (.list (p.quiz.map questionDump))
        citations := ← citationsIntrinsics py (.list (p.citations.map citationDump)) }) := rfl
  rw [hbody, hsummary, hterms, hquiz, hcitations]
  rfl

end

end MasResearch.L2.Intrinsic
