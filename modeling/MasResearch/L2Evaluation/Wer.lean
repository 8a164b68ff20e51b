import MasResearch.Core.Exec
import MasResearch.Core.Text
import Mathlib.Algebra.BigOperators.Ring.Finset
import Mathlib.Algebra.BigOperators.Group.List.Basic
import Mathlib.Algebra.Field.Rat
import Mathlib.Algebra.Order.BigOperators.Group.List
import Mathlib.Algebra.Order.Group.Nat

/-!
# Word error rates (`evaluation/wer.py`)

The rate of one utterance and the rate of a corpus, over exact rationals. jiwer counts the
edits between a hypothesis and a reference that is not empty; empty references are left to
the two functions.

* `corpusWer_some`, `corpusWer_none`: the rate of a corpus from what each pair contributes.
* `corpusWer_consistent`: it agrees with the rate of an utterance, does not depend on the
  order, and is the mean of the rates weighted by the reference lengths.
-/
namespace MasResearch.L2.Wer

/-! ## Normalising -/

/-- `unicodedata.normalize("NFKC", ..)`, `str.lower` and the class `\w` of regular expressions. -/
structure Unicode where
  nfkc : Text → Text
  lower : Text → Text
  isWord : Char → Bool

/-- `re.sub(r"[^\w\s]", " ", text)`. -/
def blankPunctuation (isWord : Char → Bool) (text : Text) : Text :=
  text.map fun c => if isWord c ∨ isSpace c then c else ' '

/-- `re.sub(r"\s+", " ", text)`; `inRun` after a whitespace character. -/
def collapseSpace (inRun : Bool) : Text → Text
  | [] => []
  | c :: cs =>
    if isSpace c then (if inRun then [] else [' ']) ++ collapseSpace true cs
    else c :: collapseSpace false cs

/-- mirrors src/evaluation/wer.py:31-45 -/
def normalizeText (u : Unicode) (text : Text) : Text :=
  strip (collapseSpace false (blankPunctuation u.isWord (u.lower (u.nfkc text))))

/-! ## Rates -/

/-- mirrors what src/evaluation/wer.py:100-103 reads of a `jiwer.WordOutput` -/
structure WordOutput where
  substitutions : Nat
  deletions : Nat
  insertions : Nat
  hits : Nat
  deriving DecidableEq, Repr

/-- The two functions of jiwer that are called. -/
structure Jiwer where
  wer : Text → Text → ℚ
  processWords : List Text → List Text → WordOutput

section

variable (u : Unicode) (jiwer : Jiwer)

/-- mirrors src/evaluation/wer.py:48-67 -/
def wordErrorRate (reference hypothesis : Text) : ℚ :=
  let refNorm := normalizeText u reference
  let hypNorm := normalizeText u hypothesis
  if refNorm = [] ∧ hypNorm = [] then 0
  else if refNorm = [] then 1
  else jiwer.wer refNorm hypNorm

/-- mirrors src/evaluation/wer.py:70-104 -/
def corpusWer (pairs : List (Text × Text)) : Except PyError ℚ :=
  if pairs = [] then .ok 0
  else
    let refs := pairs.map fun p => normalizeText u p.1
    let hyps := pairs.map fun p => normalizeText u p.2
    let emptyRefInsertions := (((refs.zip hyps).filter fun p => p.1 = []).map fun p => (splitWords p.2).length).sum
    let nonEmpty := (refs.zip hyps).filter fun p => p.1 ≠ []
    if nonEmpty = [] then .ok (if emptyRefInsertions = 0 then 0 else 1)
    else
      let out := jiwer.processWords (nonEmpty.map Prod.fst) (nonEmpty.map Prod.snd)
      let edits := out.substitutions + out.deletions + out.insertions + emptyRefInsertions
      let referenceWords := out.substitutions + out.deletions + out.hits
      -- a ZeroDivisionError
      if referenceWords = 0 then .error .external else .ok (edits / referenceWords)

end

/-! ## What is assumed of jiwer -/

namespace WordOutput

def edits (out : WordOutput) : Nat := out.substitutions + out.deletions + out.insertions

def referenceWords (out : WordOutput) : Nat := out.substitutions + out.deletions + out.hits

/-- The counts of a list are sums. -/
def total (outs : List WordOutput) : WordOutput where
  substitutions := (outs.map substitutions).sum
  deletions := (outs.map deletions).sum
  insertions := (outs.map insertions).sum
  hits := (outs.map hits).sum

theorem edits_total (outs : List WordOutput) : (total outs).edits = (outs.map edits).sum := by
  rw [edits, total, ← List.sum_map_add, ← List.sum_map_add]
  rfl

theorem referenceWords_total (outs : List WordOutput) :
    (total outs).referenceWords = (outs.map referenceWords).sum := by
  rw [referenceWords, total, ← List.sum_map_add, ← List.sum_map_add]
  rfl

end WordOutput

/-- `count` gives the counts of a normalised reference that is not empty and a normalised
hypothesis; every word of the reference is substituted, deleted or hit. -/
structure Jiwer.Counts (u : Unicode) (jiwer : Jiwer) (count : Text → Text → WordOutput) : Prop where
  wer : ∀ r h, normalizeText u r ≠ [] →
    jiwer.wer (normalizeText u r) (normalizeText u h) = ((count (normalizeText u r) (normalizeText u h)).edits : ℚ) /
      (count (normalizeText u r) (normalizeText u h)).referenceWords
  processWords : ∀ pairs : List (Text × Text), pairs ≠ [] → (∀ p ∈ pairs, normalizeText u p.1 ≠ []) →
    jiwer.processWords (pairs.map fun p => normalizeText u p.1) (pairs.map fun p => normalizeText u p.2) =
      .total (pairs.map fun p => count (normalizeText u p.1) (normalizeText u p.2))
  words : ∀ r h, normalizeText u r ≠ [] →
    (count (normalizeText u r) (normalizeText u h)).referenceWords = (splitWords (normalizeText u r)).length

/-! ## The rate of a corpus -/

section

variable (u : Unicode) (count : Text → Text → WordOutput)

/-- The edits of a pair; every word over an empty reference is an insertion. -/
def pairEdits (p : Text × Text) : Nat :=
  if normalizeText u p.1 = [] then (splitWords (normalizeText u p.2)).length
  else (count (normalizeText u p.1) (normalizeText u p.2)).edits

/-- The words of the reference. -/
def pairWords (p : Text × Text) : Nat := (splitWords (normalizeText u p.1)).length

def totalEdits (pairs : List (Text × Text)) : Nat := (pairs.map (pairEdits u count)).sum

def totalWords (pairs : List (Text × Text)) : Nat := (pairs.map (pairWords u)).sum

end

section

variable {u : Unicode} {jiwer : Jiwer} {count : Text → Text → WordOutput}

theorem words_pos {text : Text} (h : normalizeText u text ≠ []) : 0 < (splitWords (normalizeText u text)).length := by
  obtain ⟨x, rest, he, hx⟩ := (trimmed_strip h).first
  have hmem : x ∈ normalizeText u text := by
    rw [normalizeText, he]
    exact List.mem_cons_self
  exact List.length_pos_iff.mpr (splitWords_ne_nil hx hmem)

theorem totalWords_pos {pairs : List (Text × Text)} (h : ∃ p ∈ pairs, normalizeText u p.1 ≠ []) :
    0 < totalWords u pairs := by
  obtain ⟨p, hp, hne⟩ := h
  exact (words_pos hne).trans_le (List.single_le_sum (by simp) _ (List.mem_map_of_mem (f := pairWords u) hp))

/-- The pairs that jiwer sees. -/
def referenced (u : Unicode) (pairs : List (Text × Text)) : List (Text × Text) :=
  pairs.filter fun p => normalizeText u p.1 ≠ []

/-- The words are those of the references that are not empty. -/
theorem totalWords_referenced (pairs : List (Text × Text)) :
    totalWords u (referenced u pairs) = totalWords u pairs := by
  unfold referenced
  induction pairs with
  | nil => rfl
  | cons p pairs ih =>
    rw [List.filter_cons]
    by_cases hp : normalizeText u p.1 = []
    · have hzero : pairWords u p = 0 := by rw [pairWords, hp]; rfl
      rw [if_neg (by simpa using hp), ih, totalWords, totalWords, List.map_cons, List.sum_cons, hzero, Nat.zero_add]
    · rw [if_pos (by simpa using hp), totalWords, List.map_cons, List.sum_cons, ← totalWords, ih]
      rfl

/-- The insertions over empty references and the edits jiwer counts. -/
theorem totalEdits_eq (pairs : List (Text × Text)) : totalEdits u count pairs =
    ((referenced u pairs).map fun p => (count (normalizeText u p.1) (normalizeText u p.2)).edits).sum +
      ((pairs.filter fun p => normalizeText u p.1 = []).map fun p =>
        (splitWords (normalizeText u p.2)).length).sum := by
  rw [Nat.add_comm]
  exact List.sum_map_ite (fun p : Text × Text => normalizeText u p.1 = []) _ _ pairs

theorem corpusWer_unfold (jiwer : Jiwer) {pairs : List (Text × Text)} (hne : pairs ≠ []) :
    corpusWer u jiwer pairs =
      let inserted := ((pairs.filter fun p => normalizeText u p.1 = []).map fun p =>
        (splitWords (normalizeText u p.2)).length).sum
      if referenced u pairs = [] then .ok (if inserted = 0 then 0 else 1)
      else
        let out := jiwer.processWords ((referenced u pairs).map fun p => normalizeText u p.1)
          ((referenced u pairs).map fun p => normalizeText u p.2)
        if out.referenceWords = 0 then .error .external
        else .ok (((out.edits + inserted : Nat) : ℚ) / out.referenceWords) := by
  have hzip : (pairs.map fun p => normalizeText u p.1).zip (pairs.map fun p => normalizeText u p.2) =
      pairs.map fun p => (normalizeText u p.1, normalizeText u p.2) := List.zip_map' ..
  simp only [corpusWer, if_neg hne, hzip, List.filter_map, List.map_map, List.map_eq_nil_iff]
  rfl

theorem mem_referenced {pairs : List (Text × Text)} {p : Text × Text} :
    p ∈ referenced u pairs ↔ p ∈ pairs ∧ normalizeText u p.1 ≠ [] := by simp [referenced]

/-- Some reference is not empty: the edits divided by the words. -/
theorem corpusWer_some (hj : jiwer.Counts u count) {pairs : List (Text × Text)}
    (h : ∃ p ∈ pairs, normalizeText u p.1 ≠ []) :
    corpusWer u jiwer pairs = .ok ((totalEdits u count pairs : ℚ) / totalWords u pairs) := by
  obtain ⟨p, hp, href⟩ := h
  have hne : referenced u pairs ≠ [] := List.ne_nil_of_mem (mem_referenced.mpr ⟨hp, href⟩)
  have hrefs : ∀ p ∈ referenced u pairs, normalizeText u p.1 ≠ [] := fun p hp => (mem_referenced.mp hp).2
  have hwords : (jiwer.processWords ((referenced u pairs).map fun p => normalizeText u p.1)
      ((referenced u pairs).map fun p => normalizeText u p.2)).referenceWords = totalWords u pairs := by
    rw [hj.processWords _ hne hrefs, WordOutput.referenceWords_total, List.map_map, ← totalWords_referenced]
    exact congrArg List.sum (List.map_congr_left fun p hp => hj.words p.1 p.2 (hrefs p hp))
  have hedits : (jiwer.processWords ((referenced u pairs).map fun p => normalizeText u p.1)
      ((referenced u pairs).map fun p => normalizeText u p.2)).edits =
      ((referenced u pairs).map fun p => (count (normalizeText u p.1) (normalizeText u p.2)).edits).sum := by
    rw [hj.processWords _ hne hrefs, WordOutput.edits_total, List.map_map]
    rfl
  have hpos : totalWords u pairs ≠ 0 := (totalWords_pos ⟨p, hp, href⟩).ne'
  rw [corpusWer_unfold jiwer (List.ne_nil_of_mem hp)]
  simp only [if_neg hne, hwords, if_neg hpos, hedits]
  rw [← totalEdits_eq]

/-- No reference has a word: all right if no hypothesis has one. -/
theorem corpusWer_none (count : Text → Text → WordOutput) {pairs : List (Text × Text)}
    (h : ∀ p ∈ pairs, normalizeText u p.1 = []) :
    corpusWer u jiwer pairs = .ok (if totalEdits u count pairs = 0 then 0 else 1) := by
  by_cases hnil : pairs = []
  · rw [hnil]; rfl
  have hrefs : referenced u pairs = [] := List.eq_nil_iff_forall_not_mem.mpr fun p hp =>
    (mem_referenced.mp hp).2 (h p (mem_referenced.mp hp).1)
  rw [corpusWer_unfold jiwer hnil, totalEdits_eq, hrefs]
  simp

theorem corpusWer_perm (hj : jiwer.Counts u count) {pairs pairs' : List (Text × Text)} (hperm : pairs.Perm pairs') :
    corpusWer u jiwer pairs = corpusWer u jiwer pairs' := by
  have hedits : totalEdits u count pairs = totalEdits u count pairs' := (hperm.map _).sum_eq
  have hwords : totalWords u pairs = totalWords u pairs' := (hperm.map _).sum_eq
  by_cases h : ∃ p ∈ pairs, normalizeText u p.1 ≠ []
  · obtain ⟨p, hp, hne⟩ := h
    rw [corpusWer_some hj ⟨p, hp, hne⟩, corpusWer_some hj ⟨p, hperm.mem_iff.mp hp, hne⟩, hedits, hwords]
  · have hnone : ∀ p ∈ pairs, normalizeText u p.1 = [] := fun p hp => by
      by_contra hne
      exact h ⟨p, hp, hne⟩
    rw [corpusWer_none count hnone,
      corpusWer_none count fun p hp => hnone p (hperm.mem_iff.mpr hp), hedits]

/-- The rate of an utterance with a reference. -/
theorem wordErrorRate_ref (hj : jiwer.Counts u count) {p : Text × Text} (h : normalizeText u p.1 ≠ []) :
    wordErrorRate u jiwer p.1 p.2 = (pairEdits u count p : ℚ) / pairWords u p := by
  rw [wordErrorRate, if_neg (fun hand => h hand.1), if_neg h, hj.wer p.1 p.2 h, pairEdits, if_neg h, pairWords,
    hj.words p.1 p.2 h]

theorem corpusWer_single (hj : jiwer.Counts u count) (r h : Text) :
    corpusWer u jiwer [(r, h)] = .ok (wordErrorRate u jiwer r h) := by
  by_cases hr : normalizeText u r = []
  · have hnone : ∀ p ∈ [(r, h)], normalizeText u p.1 = [] := by simpa using hr
    have hedits : totalEdits u count [(r, h)] = (splitWords (normalizeText u h)).length := by
      simp [totalEdits, pairEdits, hr]
    rw [corpusWer_none count hnone, hedits, wordErrorRate]
    by_cases hh : normalizeText u h = []
    · have hzero : (splitWords ([] : Text)).length = 0 := rfl
      rw [hh, if_pos hzero, if_pos ⟨hr, rfl⟩]
    · rw [if_neg (words_pos hh).ne', if_neg (fun hand => hh hand.2), if_pos hr]
  · rw [corpusWer_some hj ⟨(r, h), List.mem_singleton_self _, hr⟩, wordErrorRate_ref (p := (r, h)) hj hr, totalEdits,
      totalWords, List.map_singleton, List.map_singleton, List.sum_singleton, List.sum_singleton]

theorem corpusWer_mean (hj : jiwer.Counts u count) {pairs : List (Text × Text)}
    (h : ∀ p ∈ pairs, normalizeText u p.1 ≠ []) : corpusWer u jiwer pairs =
      .ok ((pairs.map fun p => (pairWords u p : ℚ) * wordErrorRate u jiwer p.1 p.2).sum / totalWords u pairs) := by
  by_cases hnil : pairs = []
  · rw [hnil]; simp [corpusWer]
  obtain ⟨p, hp⟩ := List.exists_mem_of_ne_nil _ hnil
  have hsum : (totalEdits u count pairs : ℚ) =
      (pairs.map fun p => (pairWords u p : ℚ) * wordErrorRate u jiwer p.1 p.2).sum := by
    rw [totalEdits, Nat.cast_list_sum, List.map_map]
    refine congrArg List.sum (List.map_congr_left fun p hp => ?_)
    have hpos : (pairWords u p : ℚ) ≠ 0 := Nat.cast_ne_zero.mpr (words_pos (h p hp)).ne'
    rw [wordErrorRate_ref hj (h p hp), mul_div_cancel₀ _ hpos]
    rfl
  rw [corpusWer_some hj ⟨p, hp, h p hp⟩, hsum]

/-- The rate of a corpus is consistent with the rates of its utterances. -/
theorem corpusWer_consistent (hj : jiwer.Counts u count) :
    (∀ r h, corpusWer u jiwer [(r, h)] = .ok (wordErrorRate u jiwer r h)) ∧
    (∀ pairs pairs' : List (Text × Text), pairs.Perm pairs' → corpusWer u jiwer pairs = corpusWer u jiwer pairs') ∧
    (∀ pairs : List (Text × Text), (∃ p ∈ pairs, normalizeText u p.1 ≠ []) → totalWords u pairs ≠ 0 ∧
      corpusWer u jiwer pairs = .ok ((totalEdits u count pairs : ℚ) / totalWords u pairs)) ∧
    ∀ pairs : List (Text × Text), (∀ p ∈ pairs, normalizeText u p.1 ≠ []) → corpusWer u jiwer pairs =
      .ok ((pairs.map fun p => (pairWords u p : ℚ) * wordErrorRate u jiwer p.1 p.2).sum / totalWords u pairs) :=
  ⟨corpusWer_single hj, fun _ _ => corpusWer_perm hj,
    fun _ h => ⟨(totalWords_pos h).ne', corpusWer_some hj h⟩, fun _ => corpusWer_mean hj⟩

end

/-! ## Counting edits -/

/-- The one with fewer edits. -/
def WordOutput.better (a b : WordOutput) : WordOutput := if a.edits ≤ b.edits then a else b

/-- The counts of an alignment with the fewest edits. -/
def fewestEdits : List Text → List Text → WordOutput
  | [], hypothesis => ⟨0, 0, hypothesis.length, 0⟩
  | _ :: reference, [] => ⟨0, reference.length + 1, 0, 0⟩
  | r :: reference, h :: hypothesis =>
    let both := fewestEdits reference hypothesis
    if r = h then { both with hits := both.hits + 1 }
    else
      let deleted := fewestEdits reference (h :: hypothesis)
      let inserted := fewestEdits (r :: reference) hypothesis
      .better { both with substitutions := both.substitutions + 1 }
        (.better { deleted with deletions := deleted.deletions + 1 }
          { inserted with insertions := inserted.insertions + 1 })
termination_by reference hypothesis => reference.length + hypothesis.length

theorem referenceWords_better {a b : WordOutput} {n : Nat} (ha : a.referenceWords = n) (hb : b.referenceWords = n) :
    (a.better b).referenceWords = n := by
  unfold WordOutput.better
  split
  · exact ha
  · exact hb

theorem referenceWords_fewestEdits (reference hypothesis : List Text) :
    (fewestEdits reference hypothesis).referenceWords = reference.length := by
  fun_induction fewestEdits reference hypothesis with
  | case1 hypothesis => rfl
  | case2 r reference => simp [WordOutput.referenceWords]
  | case3 reference h hypothesis both ih =>
    rw [List.length_cons, ← ih]
    exact (Nat.add_assoc _ _ _).symm
  | case4 r reference h hypothesis both hne deleted inserted hboth hdeleted hinserted =>
    have hsub : both.substitutions + both.deletions + both.hits = reference.length := hboth
    have hdel : deleted.substitutions + deleted.deletions + deleted.hits = reference.length := hdeleted
    have hins : inserted.substitutions + inserted.deletions + inserted.hits = reference.length + 1 := hinserted
    refine referenceWords_better ?_ (referenceWords_better ?_ ?_)
    · show both.substitutions + 1 + both.deletions + both.hits = reference.length + 1
      omega
    · show deleted.substitutions + (deleted.deletions + 1) + deleted.hits = reference.length + 1
      omega
    · exact hins

def counted (reference hypothesis : Text) : WordOutput := fewestEdits (splitWords reference) (splitWords hypothesis)

/-- jiwer, up to the choice between alignments that have equally many edits. -/
def countingJiwer : Jiwer where
  wer reference hypothesis := (counted reference hypothesis).edits / (counted reference hypothesis).referenceWords
  processWords references hypotheses := .total ((references.zip hypotheses).map fun p => counted p.1 p.2)

theorem counts_countingJiwer (u : Unicode) : countingJiwer.Counts u counted where
  wer _ _ _ := rfl
  processWords pairs _ _ := by
    have hzip : (pairs.map fun p => normalizeText u p.1).zip (pairs.map fun p => normalizeText u p.2) =
        pairs.map fun p => (normalizeText u p.1, normalizeText u p.2) := List.zip_map' ..
    show WordOutput.total (((pairs.map fun p => normalizeText u p.1).zip
      (pairs.map fun p => normalizeText u p.2)).map fun p => counted p.1 p.2) = _
    rw [hzip, List.map_map]
    rfl
  words _ _ _ := referenceWords_fewestEdits _ _

/-- Latin letters only. -/
def ascii : Unicode := ⟨id, id, Char.isAlphanum⟩

theorem corpusWer_consistent_counting :
    (∀ r h, corpusWer ascii countingJiwer [(r, h)] = .ok (wordErrorRate ascii countingJiwer r h)) ∧
    (∀ pairs pairs' : List (Text × Text), pairs.Perm pairs' →
      corpusWer ascii countingJiwer pairs = corpusWer ascii countingJiwer pairs') ∧
    (∀ pairs : List (Text × Text), (∃ p ∈ pairs, normalizeText ascii p.1 ≠ []) → totalWords ascii pairs ≠ 0 ∧
      corpusWer ascii countingJiwer pairs = .ok ((totalEdits ascii counted pairs : ℚ) / totalWords ascii pairs)) ∧
    ∀ pairs : List (Text × Text), (∀ p ∈ pairs, normalizeText ascii p.1 ≠ []) → corpusWer ascii countingJiwer pairs =
      .ok ((pairs.map fun p => (pairWords ascii p : ℚ) * wordErrorRate ascii countingJiwer p.1 p.2).sum /
        totalWords ascii pairs) :=
  corpusWer_consistent (counts_countingJiwer ascii)

end MasResearch.L2.Wer
