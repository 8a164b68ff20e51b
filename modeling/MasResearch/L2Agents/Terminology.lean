import MasResearch.L2Adapters.Spacy
import MasResearch.L2Agents.Terms
import Mathlib.Algebra.BigOperators.Group.List.Lemmas
import Mathlib.Algebra.BigOperators.Ring.Finset
import Mathlib.Data.List.Sort

/-!
# The terminology agent (`agents/terminology.py`): aggregation

The NER adapter gives one list of candidates for each chunk. The candidates that pass the
filters are counted by lemma, with the chunks they occur in and their first occurrence;
the near-duplicates are merged, and the merged lemmas are ranked and cut to the top.

* `collected_collectMaps`: after the loop the three maps are what the occurrences say.
* `MergeOf.represents`: each group goes to one representative.
* `aggregates_extractTerms`: the merge neither loses nor invents an occurrence.
-/
namespace MasResearch.L2

open MasResearch.L1

/-! ## Candidates -/

/-- mirrors src/agents/terminology.py:27 -/
def minLemmaLen : Nat := 2

/-- mirrors src/agents/terminology.py:39 -/
def dottedInitialLen : Nat := 2

/-- mirrors src/agents/terminology.py:42-50 -/
def isNoiseLemma («lemma» : String) : Bool :=
  (tokens «lemma»).any fun token => token.length = dottedInitialLen ∧ token.getLast? = some '.'

/-- What the agent is made with, apart from the bus and the adapter.
mirrors src/agents/terminology.py:174-192 -/
structure TerminologyAgent where
  stopwords : Finset String
  domain : Dict String (List String)

section

variable (lower : String → String) (agent : TerminologyAgent)

/-- `candidate.lemma.lower().strip()`. -/
def TermCandidate.key (candidate : TermCandidate) : String := stripped (lower candidate.lemma)

/-- The body of the loop over the candidates of one chunk.
mirrors src/agents/terminology.py:219-228 -/
def addCandidate (chunkId : String) (maps : CandidateMaps) (candidate : TermCandidate) : CandidateMaps :=
  let key := candidate.key lower
  if key.length < minLemmaLen ∨ key ∈ agent.stopwords then maps
  else if isNoiseLemma key then maps
  else
    { frequency := maps.frequency.set key (maps.frequency.getD key 0 + 1)
      chunkIds := maps.chunkIds.set key (insert chunkId (maps.chunkIds.getD key ∅))
      firstSeen := if key ∈ maps.firstSeen then maps.firstSeen
        else maps.firstSeen.set key (candidate.text, candidate.label, chunkId) }

/-- mirrors src/agents/terminology.py:218-228 -/
def collectMaps (entries : List (String × List TermCandidate)) : CandidateMaps :=
  entries.foldl (fun maps entry => entry.2.foldl (addCandidate lower agent entry.1) maps) {}

/-- mirrors src/agents/terminology.py:252-258 -/
def categorize («lemma» label : String) : String :=
  if label ≠ "" then label
  else match agent.domain.entries.find? fun entry => entry.2.contains «lemma» with
    | some entry => entry.1
    | none => "general"

variable {κ : Type} [LinearOrder κ] (score : Int → Nat → Nat → κ)

/-- The key of `sorted`; `score` is `-frequency * math.log(1 + n_chunks / n_ids)`.
mirrors src/agents/terminology.py:233-236 -/
def rankingKey (merged : CandidateMaps) (nChunks : Nat) («lemma» : String) : Except PyError (κ × String) := do
  let frequency ← item merged.frequency «lemma»
  let ids ← item merged.chunkIds «lemma»
  -- a ZeroDivisionError
  if ids.card = 0 then throw .external
  return (score frequency nChunks ids.card, «lemma»)

/-- `a < b` for two keys. -/
def ranksBefore (a b : κ × String) : Bool := a.1 < b.1 ∨ a.1 = b.1 ∧ a.2 < b.2

/-- mirrors src/agents/terminology.py:239-249 -/
def emitTerm (merged : CandidateMaps) («lemma» : String) : Except PyError Term := do
  let (surface, label, chunkId) ← item merged.firstSeen «lemma»
  let frequency ← item merged.frequency «lemma»
  return { term := surface, «lemma» := «lemma», frequency := frequency, category := categorize agent «lemma» label
           sourceChunkId := some chunkId }

/-- mirrors src/agents/terminology.py:209-250 -/
def extractTerms (extractMany : List String → Except PyError (List (List TermCandidate)))
    (sources : List (String × String)) (topN : Int) : Except PyError (List Term) := do
  let allCandidates ← extractMany (sources.map Prod.snd)
  let entries ← zipStrict (sources.map Prod.fst) allCandidates
  let merged ← mergeNearDuplicates (collectMaps lower agent entries)
  let keys ← merged.frequency.keys.mapM (rankingKey score merged sources.length)
  let scored := (keys.mergeSort fun a b => !ranksBefore b a).map Prod.snd
  (sliceTo scored topN).mapM (emitTerm agent merged)

/-! ## Occurrences -/

/-- The lemma passes the length, stop-word and noise filters. -/
def passes (key : String) : Bool := !(key.length < minLemmaLen ∨ key ∈ agent.stopwords) && !isNoiseLemma key

/-- The candidates that pass, each with the id of its chunk, in the order of the loop. -/
def occurrences (entries : List (String × List TermCandidate)) : List (String × TermCandidate) :=
  (entries.flatMap fun entry => entry.2.map fun candidate => (entry.1, candidate)).filter fun o =>
    passes agent (o.2.key lower)

/-- What the loop does for a candidate that passes. -/
def recordOccurrence (maps : CandidateMaps) (o : String × TermCandidate) : CandidateMaps where
  frequency := maps.frequency.set (o.2.key lower) (maps.frequency.getD (o.2.key lower) 0 + 1)
  chunkIds := maps.chunkIds.set (o.2.key lower) (insert o.1 (maps.chunkIds.getD (o.2.key lower) ∅))
  firstSeen := if o.2.key lower ∈ maps.firstSeen then maps.firstSeen
    else maps.firstSeen.set (o.2.key lower) (o.2.text, o.2.label, o.1)

theorem addCandidate_eq (chunkId : String) (maps : CandidateMaps) (candidate : TermCandidate) :
    addCandidate lower agent chunkId maps candidate =
      if passes agent (candidate.key lower) = true then recordOccurrence lower maps (chunkId, candidate) else maps := by
  unfold addCandidate passes
  by_cases hlen : (candidate.key lower).length < minLemmaLen ∨ candidate.key lower ∈ agent.stopwords
  · simp [hlen]
  · by_cases hnoise : isNoiseLemma (candidate.key lower) = true
    · simp [hlen, hnoise]
    · simp [hlen, hnoise, recordOccurrence]

theorem collectMaps_eq (entries : List (String × List TermCandidate)) :
    collectMaps lower agent entries = (occurrences lower agent entries).foldl (recordOccurrence lower) {} := by
  have hbody : ∀ entry : String × List TermCandidate, addCandidate lower agent entry.1 = fun maps candidate =>
      if passes agent (candidate.key lower) = true then recordOccurrence lower maps (entry.1, candidate) else maps :=
    fun entry => funext₂ fun maps candidate => addCandidate_eq lower agent entry.1 maps candidate
  rw [occurrences, List.foldl_filter, List.foldl_flatMap, collectMaps]
  simp only [List.foldl_map, hbody]

/-- What the three maps say after the occurrences `os`. -/
structure Collected (os : List (String × TermCandidate)) (maps : CandidateMaps) : Prop where
  frequency : ∀ a, maps.frequency.getD a 0 = (os.map fun o => o.2.key lower).count a
  frequencyKeys : ∀ a, a ∈ maps.frequency ↔ a ∈ os.map fun o => o.2.key lower
  chunkIds : ∀ a id, id ∈ maps.chunkIds.getD a ∅ ↔ ∃ o ∈ os, o.2.key lower = a ∧ o.1 = id
  chunkIdsKeys : ∀ a, a ∈ maps.chunkIds ↔ a ∈ os.map fun o => o.2.key lower
  firstSeen : ∀ a, maps.firstSeen.get? a =
    (os.find? fun o => o.2.key lower = a).map fun o => (o.2.text, o.2.label, o.1)

theorem collected_empty : Collected lower [] {} where
  frequency _ := rfl
  frequencyKeys _ := by simp
  chunkIds _ _ := by simp [Dict.getD_eq]
  chunkIdsKeys _ := by simp
  firstSeen _ := rfl

theorem Collected.record {os : List (String × TermCandidate)} {maps : CandidateMaps} (h : Collected lower os maps)
    (o : String × TermCandidate) : Collected lower (os ++ [o]) (recordOccurrence lower maps o) where
  frequency a := by
    rw [recordOccurrence, Dict.getD_eq, Dict.get?_set, List.map_append, List.count_append, Nat.cast_add,
      ← h.frequency a]
    by_cases ha : a = o.2.key lower
    · simp [ha]
    · simp [ha, Ne.symm ha, Dict.getD_eq]
  frequencyKeys a := by
    rw [recordOccurrence, Dict.mem_set, h.frequencyKeys, List.map_append, List.mem_append]
    simp [or_comm]
  chunkIds a id := by
    have hsplit : (∃ o' ∈ os ++ [o], o'.2.key lower = a ∧ o'.1 = id) ↔
        (∃ o' ∈ os, o'.2.key lower = a ∧ o'.1 = id) ∨ o.2.key lower = a ∧ o.1 = id := by
      simp only [List.mem_append, List.mem_singleton, or_and_right, exists_or, exists_eq_left]
    rw [recordOccurrence, Dict.getD_eq, Dict.get?_set, hsplit, ← h.chunkIds]
    by_cases ha : a = o.2.key lower
    · simp [ha, or_comm, eq_comm]
    · simp [ha, Ne.symm ha, Dict.getD_eq]
  chunkIdsKeys a := by
    rw [recordOccurrence, Dict.mem_set, h.chunkIdsKeys, List.map_append, List.mem_append]
    simp [or_comm]
  firstSeen a := by
    rw [recordOccurrence, List.find?_append, Option.map_or, ← h.firstSeen a]
    by_cases hin : o.2.key lower ∈ maps.firstSeen
    · rw [if_pos hin]
      by_cases ha : a = o.2.key lower
      · obtain ⟨seen, hseen⟩ := Dict.exists_get? hin
        rw [ha, hseen, Option.some_or]
      · simp [Ne.symm ha]
    · rw [if_neg hin, Dict.get?_set]
      by_cases ha : a = o.2.key lower
      · rw [if_pos ha, ha, Dict.not_mem_iff.mp hin]; simp
      · simp [ha, Ne.symm ha]

theorem Collected.records : ∀ {os : List (String × TermCandidate)} {maps : CandidateMaps}
    (rest : List (String × TermCandidate)), Collected lower os maps →
    Collected lower (os ++ rest) (rest.foldl (recordOccurrence lower) maps)
  | os, _, [], h => by rwa [List.append_nil]
  | os, _, o :: rest, h => by
    have hrest := Collected.records rest (h.record lower o)
    rwa [List.append_assoc] at hrest

theorem collected_collectMaps (entries : List (String × List TermCandidate)) :
    Collected lower (occurrences lower agent entries) (collectMaps lower agent entries) := by
  rw [collectMaps_eq]
  exact (collected_empty lower).records lower _

end

/-! ## Sums -/

theorem sum_count_eq_length {keys xs : List String} (hnd : keys.Nodup) (hmem : ∀ a, a ∈ keys ↔ a ∈ xs) :
    (keys.map fun a => (xs.count a : Int)).sum = xs.length := by
  have hperm : keys.Perm xs.dedup :=
    (List.perm_ext_iff_of_nodup hnd xs.nodup_dedup).mpr fun a => (hmem a).trans List.mem_dedup.symm
  have hsum := List.sum_map_count_dedup_eq_length xs
  rw [(hperm.map _).sum_eq, ← hsum, Nat.cast_list_sum, List.map_map]
  rfl

section

variable {lower : String → String} {agent : TerminologyAgent}

theorem tokens_stripped {text : String} (h : stripped text ≠ "") : tokens (stripped text) ≠ [] := by
  have hne : strip text.toList ≠ [] := fun he => h (by rw [stripped, he])
  obtain ⟨x, rest, he, hx⟩ := (trimmed_strip hne).first
  rw [tokens, stripped, String.toList_ofList]
  exact splitWords_ne_nil hx (he ▸ List.mem_cons_self)

theorem tokens_passes {candidate : TermCandidate} (h : passes agent (candidate.key lower) = true) :
    tokens (candidate.key lower) ≠ [] := by
  refine tokens_stripped fun he => ?_
  rw [TermCandidate.key, he] at h
  simp [passes, minLemmaLen] at h

theorem passes_occurrences {entries : List (String × List TermCandidate)} {o : String × TermCandidate}
    (h : o ∈ occurrences lower agent entries) : passes agent (o.2.key lower) = true := (List.mem_filter.mp h).2

section

variable {os : List (String × TermCandidate)} {maps : CandidateMaps}

theorem Collected.has (h : Collected lower os maps) {a : String} (ha : a ∈ maps.frequency) : maps.Has a where
  frequency := ha
  chunkIds := (h.chunkIdsKeys a).mpr ((h.frequencyKeys a).mp ha)
  firstSeen := by
    obtain ⟨o, ho, he⟩ := List.mem_map.mp ((h.frequencyKeys a).mp ha)
    rw [Dict.mem_iff_get?, h.firstSeen, Option.isSome_map, List.find?_isSome]
    exact ⟨o, ho, by simpa using he⟩

theorem Collected.sum_frequency (h : Collected lower os maps) :
    (maps.frequency.keys.map fun a => maps.frequency.getD a 0).sum = os.length := by
  have hcount : (maps.frequency.keys.map fun a => maps.frequency.getD a 0) =
      maps.frequency.keys.map fun a => (((os.map fun o => o.2.key lower).count a : Nat) : Int) :=
    List.map_congr_left fun a _ => h.frequency a
  rw [hcount, sum_count_eq_length maps.frequency.nodup_keys h.frequencyKeys, List.length_map]

end

/-! ## What aggregation keeps -/

/-- The group is emitted under `rep`, with all that was counted for its members. -/
structure Represents (maps merged : CandidateMaps) (group : List String) (rep : String) : Prop where
  mem : rep ∈ group
  maximal : ∀ m ∈ group, maps.frequency.getD m 0 ≤ maps.frequency.getD rep 0
  least : ∀ m ∈ group, maps.frequency.getD m 0 = maps.frequency.getD rep 0 → ¬ m < rep
  frequency : merged.frequency.get? rep = some (group.map fun m => maps.frequency.getD m 0).sum
  chunkIds : ∃ ids, merged.chunkIds.get? rep = some ids ∧
    ∀ id, id ∈ ids ↔ ∃ m ∈ group, id ∈ maps.chunkIds.getD m ∅
  firstSeen : merged.firstSeen.get? rep = maps.firstSeen.get? rep

/-- `maps` are the maps before the merge, `merged` those after it. -/
structure Aggregates (lower : String → String) (agent : TerminologyAgent)
    (entries : List (String × List TermCandidate)) (topN : Int) (maps merged : CandidateMaps)
    (groups : List (List String)) (terms : List Term) : Prop where
  collected : Collected lower (occurrences lower agent entries) maps
  total : merged.frequency.values.sum = (occurrences lower agent entries).length
  partition : groups.flatten.Perm maps.frequency.keys
  represented : List.Forall₂ (Represents maps merged) groups merged.frequency.keys
  union : ∀ id, (∃ ids ∈ merged.chunkIds.values, id ∈ ids) ↔ ∃ ids ∈ maps.chunkIds.values, id ∈ ids
  ranked : ∃ ranking, ranking.Perm merged.frequency.keys ∧ (terms.map fun term => term.lemma) = sliceTo ranking topN
  attributed : ∀ term ∈ terms, ∃ o ∈ occurrences lower agent entries,
    o.2.key lower = term.lemma ∧ term.sourceChunkId = some o.1

theorem mem_foldl_union {α : Type} [DecidableEq α] {x : α} : ∀ {sets : List (Finset α)} {acc : Finset α},
    x ∈ sets.foldl (· ∪ ·) acc ↔ x ∈ acc ∨ ∃ s ∈ sets, x ∈ s
  | [], acc => by simp
  | s :: sets, acc => by
    rw [List.foldl_cons, mem_foldl_union, Finset.mem_union, List.exists_mem_cons_iff, or_assoc]

section

variable {os : List (String × TermCandidate)} {maps merged : CandidateMaps} {groups : List (List String)}

theorem MergeOf.keys (h : MergeOf maps merged groups) : merged.frequency.keys = groups.map (repOf maps.frequency) := by
  rw [Dict.keys, h.frequency, List.map_map]; rfl

theorem MergeOf.represents (h : MergeOf maps merged groups) (hhas : ∀ group ∈ groups, ∀ m ∈ group, maps.Has m)
    {group : List String} (hg : group ∈ groups) (hne : group ≠ []) :
    Represents maps merged group (repOf maps.frequency group) where
  mem := repOf_mem maps.frequency hne
  maximal m hm := by
    have hleast := repOf_least maps.frequency hm
    simp only [preferred, decide_eq_false_iff_not, not_or] at hleast
    omega
  least m hm heq hlt := by
    have hleast := repOf_least maps.frequency hm
    simp only [preferred, decide_eq_false_iff_not, not_or] at hleast
    exact hleast.2 ⟨heq, hlt⟩
  frequency := by
    rw [Dict.get?_eq_some, h.frequency]
    exact List.mem_map_of_mem hg
  chunkIds := by
    refine ⟨_, by rw [Dict.get?_eq_some, h.chunkIds]; exact List.mem_map_of_mem hg, fun id => ?_⟩
    rw [mem_foldl_union]
    simp
  firstSeen := by
    obtain ⟨seen, hseen⟩ := Dict.exists_get? (hhas group hg _ (repOf_mem maps.frequency hne)).firstSeen
    have hget : maps.firstSeen.getD (repOf maps.frequency group) ("", "", "") = seen := by
      rw [Dict.getD_eq, hseen, Option.getD_some]
    rw [hseen, Dict.get?_eq_some, h.firstSeen, ← hget]
    exact List.mem_map_of_mem (f := fun group => (repOf maps.frequency group,
      maps.firstSeen.getD (repOf maps.frequency group) ("", "", ""))) hg

theorem MergeOf.sum_values (h : MergeOf maps merged groups) (hperm : groups.flatten.Perm maps.frequency.keys) :
    merged.frequency.values.sum = (maps.frequency.keys.map fun a => maps.frequency.getD a 0).sum := by
  rw [← (hperm.map _).sum_eq, Dict.values, h.frequency, List.map_map, List.map_flatten, List.sum_flatten,
    List.map_map]
  rfl

theorem exists_mem_values {ν : Type} {d : Dict String (Finset ν)} {x : ν} :
    (∃ ids ∈ d.values, x ∈ ids) ↔ ∃ a, x ∈ d.getD a ∅ := by
  constructor
  · rintro ⟨ids, hids, hx⟩
    obtain ⟨a, ha⟩ := Dict.mem_values.mp hids
    exact ⟨a, by rwa [Dict.getD_eq, ha]⟩
  · rintro ⟨a, hx⟩
    rw [Dict.getD_eq] at hx
    cases ha : d.get? a with
    | none => simp [ha] at hx
    | some ids =>
      rw [ha] at hx
      exact ⟨ids, Dict.mem_values.mpr ⟨a, ha⟩, hx⟩

theorem MergeOf.union (h : MergeOf maps merged groups) (hperm : groups.flatten.Perm maps.frequency.keys)
    (hkeys : ∀ a, a ∈ maps.chunkIds ↔ a ∈ maps.frequency) (id : String) :
    (∃ ids ∈ merged.chunkIds.values, id ∈ ids) ↔ ∃ ids ∈ maps.chunkIds.values, id ∈ ids := by
  have hmerged : (∃ ids ∈ merged.chunkIds.values, id ∈ ids) ↔
      ∃ group ∈ groups, ∃ m ∈ group, id ∈ maps.chunkIds.getD m ∅ := by
    rw [Dict.values, h.chunkIds]
    simp [mem_foldl_union]
  rw [hmerged, exists_mem_values]
  constructor
  · rintro ⟨group, -, m, -, hid⟩
    exact ⟨m, hid⟩
  · rintro ⟨a, hid⟩
    have ha : a ∈ maps.chunkIds := by
      by_contra hnot
      rw [Dict.getD_eq, Dict.not_mem_iff.mp hnot] at hid
      simp at hid
    obtain ⟨group, hg, hm⟩ := List.mem_flatten.mp (hperm.mem_iff.mpr ((hkeys a).mp ha))
    exact ⟨group, hg, a, hm, hid⟩

/-- Every merged lemma stands for a group. -/
theorem MergeOf.exists_group (h : MergeOf maps merged groups) (hhas : ∀ group ∈ groups, ∀ m ∈ group, maps.Has m)
    (hne : ∀ group ∈ groups, group ≠ []) {a : String} (ha : a ∈ merged.frequency) :
    ∃ group ∈ groups, Represents maps merged group a := by
  have hkey : a ∈ groups.map (repOf maps.frequency) := h.keys ▸ ha
  obtain ⟨group, hg, rfl⟩ := List.mem_map.mp hkey
  exact ⟨group, hg, h.represents hhas hg (hne group hg)⟩

/-- A lemma was counted in the chunk of its first occurrence. -/
theorem Collected.exists_first (h : Collected lower os maps) {a : String} (ha : a ∈ maps.frequency) :
    ∃ o ∈ os, o.2.key lower = a ∧ maps.firstSeen.get? a = some (o.2.text, o.2.label, o.1) := by
  obtain ⟨seen, hseen⟩ := Dict.exists_get? (h.has ha).firstSeen
  obtain ⟨o, ho, rfl⟩ := Option.map_eq_some_iff.mp ((h.firstSeen a).symm.trans hseen)
  exact ⟨o, List.mem_of_find?_eq_some ho, by simpa using List.find?_some ho, hseen⟩

/-- A representative was itself found in a chunk that is in its merged set. -/
theorem Collected.ids_nonempty (h : Collected lower os maps) {group : List String} {a : String}
    (hrep : Represents maps merged group a) (ha : a ∈ maps.frequency) :
    ∃ ids, merged.chunkIds.get? a = some ids ∧ ids.Nonempty := by
  obtain ⟨ids, hget, hmem⟩ := hrep.chunkIds
  obtain ⟨o, ho, hkey, -⟩ := h.exists_first ha
  have hid : o.1 ∈ maps.chunkIds.getD a ∅ := (h.chunkIds a o.1).mpr ⟨o, ho, hkey, rfl⟩
  exact ⟨ids, hget, o.1, (hmem o.1).mpr ⟨a, hrep.mem, hid⟩⟩

theorem Collected.merged_first (h : Collected lower os maps) {group : List String} {a : String}
    (hrep : Represents maps merged group a) (ha : a ∈ maps.frequency) :
    ∃ o ∈ os, o.2.key lower = a ∧ merged.firstSeen.get? a = some (o.2.text, o.2.label, o.1) := by
  obtain ⟨o, ho, hkey, hseen⟩ := h.exists_first ha
  exact ⟨o, ho, hkey, hrep.firstSeen.trans hseen⟩

end

/-! ## The terms -/

section

variable {maps merged : CandidateMaps} {groups : List (List String)} {κ : Type} {score : Int → Nat → Nat → κ}

theorem rankingKey_ok {«lemma» : String} (hf : «lemma» ∈ merged.frequency) {ids : Finset String}
    (hids : merged.chunkIds.get? «lemma» = some ids) (hne : ids.Nonempty) (n : Nat) :
    rankingKey score merged n «lemma» =
      .ok (score (merged.frequency.getD «lemma» 0) n (merged.chunkIds.getD «lemma» ∅).card, «lemma») := by
  have hcard : (merged.chunkIds.getD «lemma» ∅).card ≠ 0 := by
    rw [Dict.getD_eq, hids]
    exact hne.card_ne_zero
  simp only [rankingKey, item_ok hf 0, item_ok (Dict.mem_of_get? hids) ∅]
  exact if_neg hcard

variable [LinearOrder κ]

/-- The lemmas in the order of their scores. -/
def ranking (score : Int → Nat → Nat → κ) (merged : CandidateMaps) (n : Nat) : List String :=
  let keys := merged.frequency.keys.map fun a =>
    (score (merged.frequency.getD a 0) n (merged.chunkIds.getD a ∅).card, a)
  (keys.mergeSort fun a b => !ranksBefore b a).map Prod.snd

theorem perm_ranking (score : Int → Nat → Nat → κ) (merged : CandidateMaps) (n : Nat) :
    (ranking score merged n).Perm merged.frequency.keys := by
  refine ((List.mergeSort_perm _ _).map Prod.snd).trans (.of_eq ?_)
  rw [List.map_map]
  exact List.map_id _

/-- The term of an emitted lemma. -/
def termOf (agent : TerminologyAgent) (merged : CandidateMaps) («lemma» : String) : Term :=
  let seen := merged.firstSeen.getD «lemma» ("", "", "")
  { term := seen.1, «lemma» := «lemma», frequency := merged.frequency.getD «lemma» 0
    category := categorize agent «lemma» seen.2.1, sourceChunkId := some seen.2.2 }

theorem emitTerm_ok {«lemma» : String} (hf : «lemma» ∈ merged.frequency) (hs : «lemma» ∈ merged.firstSeen) :
    emitTerm agent merged «lemma» = .ok (termOf agent merged «lemma») := by
  simp only [emitTerm, item_ok hf 0, item_ok hs ("", "", "")]
  rfl

/-- Whatever is counted is emitted, in the order of the scores, up to the cut. -/
theorem extractTerms_ok {extractMany : List String → Except PyError (List (List TermCandidate))}
    {sources : List (String × String)} {output : List (List TermCandidate)}
    (hner : extractMany (sources.map Prod.snd) = .ok output) (hlen : output.length = sources.length) (topN : Int)
    (hmerge : mergeNearDuplicates (collectMaps lower agent ((sources.map Prod.fst).zip output)) = .ok merged)
    (hids : ∀ a ∈ merged.frequency, ∃ ids, merged.chunkIds.get? a = some ids ∧ ids.Nonempty)
    (hseen : ∀ a ∈ merged.frequency, a ∈ merged.firstSeen) :
    extractTerms lower agent score extractMany sources topN =
      .ok ((sliceTo (ranking score merged sources.length) topN).map (termOf agent merged)) := by
  have hkey : ∀ a ∈ merged.frequency.keys, rankingKey score merged sources.length a =
      .ok (score (merged.frequency.getD a 0) sources.length (merged.chunkIds.getD a ∅).card, a) := by
    intro a ha
    obtain ⟨ids, hget, hne⟩ := hids a ha
    exact rankingKey_ok ha hget hne sources.length
  have hterm : ∀ a ∈ sliceTo (ranking score merged sources.length) topN,
      emitTerm agent merged a = .ok (termOf agent merged a) := by
    intro a ha
    have hin : a ∈ merged.frequency := (perm_ranking score merged sources.length).subset (mem_sliceTo ha)
    exact emitTerm_ok hin (hseen a hin)
  have hzip : zipStrict (sources.map Prod.fst) output = .ok ((sources.map Prod.fst).zip output) :=
    zipStrict_ok (by rw [hlen, List.length_map])
  rw [extractTerms, hner]
  simp only [bind, Except.bind, hzip, hmerge, mapM_ok hkey]
  exact mapM_ok hterm

/-- Aggregation neither loses nor invents an occurrence. -/
theorem aggregates_extractTerms (lower : String → String) (agent : TerminologyAgent)
    (score : Int → Nat → Nat → κ) (extractMany : List String → Except PyError (List (List TermCandidate)))
    (sources : List (String × String)) (output : List (List TermCandidate))
    (hner : extractMany (sources.map Prod.snd) = .ok output) (hlen : output.length = sources.length) (topN : Int) :
    ∃ maps groupKey merged terms,
      collectMaps lower agent ((sources.map Prod.fst).zip output) = maps ∧
      groupLemmas maps.frequency.keys ∅ = .ok groupKey ∧ mergeNearDuplicates maps = .ok merged ∧
      extractTerms lower agent score extractMany sources topN = .ok terms ∧
      Aggregates lower agent ((sources.map Prod.fst).zip output) topN maps merged (members groupKey).values terms := by
  obtain ⟨maps, hmaps⟩ : ∃ maps, collectMaps lower agent ((sources.map Prod.fst).zip output) = maps := ⟨_, rfl⟩
  have hcollected : Collected lower (occurrences lower agent ((sources.map Prod.fst).zip output)) maps :=
    hmaps ▸ collected_collectMaps lower agent _
  have hblank : ∀ a ∈ maps.frequency, tokens a ≠ [] := by
    intro a ha
    obtain ⟨o, ho, rfl⟩ := List.mem_map.mp ((hcollected.frequencyKeys a).mp ha)
    exact tokens_passes (passes_occurrences ho)
  obtain ⟨groupKey, merged, hgroup, hmerge, hperm, hof⟩ :=
    mergeOf_mergeNearDuplicates (fun a ha => hcollected.has ha) hblank
  have hne : ∀ group ∈ (members groupKey).values, group ≠ [] := by
    intro group hg
    obtain ⟨h, hh⟩ := Dict.mem_values.mp hg
    exact (mem_members hh).1
  have hhas : ∀ group ∈ (members groupKey).values, ∀ m ∈ group, maps.Has m := fun group hg m hm =>
    hcollected.has (hperm.subset (List.mem_flatten.mpr ⟨group, hg, hm⟩))
  have hrep : ∀ a ∈ merged.frequency, ∃ group, Represents maps merged group a ∧ a ∈ maps.frequency := by
    intro a ha
    obtain ⟨group, hg, hrep⟩ := hof.exists_group hhas hne ha
    exact ⟨group, hrep, (hhas group hg a hrep.mem).frequency⟩
  have hids : ∀ a ∈ merged.frequency, ∃ ids, merged.chunkIds.get? a = some ids ∧ ids.Nonempty := fun a ha =>
    have ⟨_, hrep, hin⟩ := hrep a ha
    hcollected.ids_nonempty hrep hin
  have hfirst : ∀ a ∈ merged.frequency, ∃ o ∈ occurrences lower agent ((sources.map Prod.fst).zip output),
      o.2.key lower = a ∧ merged.firstSeen.get? a = some (o.2.text, o.2.label, o.1) := fun a ha =>
    have ⟨_, hrep, hin⟩ := hrep a ha
    hcollected.merged_first hrep hin
  have hseen : ∀ a ∈ merged.frequency, a ∈ merged.firstSeen := fun a ha =>
    have ⟨_, _, _, hget⟩ := hfirst a ha
    Dict.mem_of_get? hget
  refine ⟨maps, groupKey, merged, _, hmaps, hgroup, hmerge,
    extractTerms_ok hner hlen topN (hmaps ▸ hmerge) hids hseen, ?_⟩
  constructor
  case collected => exact hcollected
  case total => rw [hof.sum_values hperm, hcollected.sum_frequency]
  case partition => exact hperm
  case represented =>
    rw [hof.keys, List.forall₂_map_right_iff, List.forall₂_same]
    exact fun group hg => hof.represents hhas hg (hne group hg)
  case union =>
    exact hof.union hperm fun a => (hcollected.chunkIdsKeys a).trans (hcollected.frequencyKeys a).symm
  case ranked =>
    refine ⟨_, perm_ranking score merged sources.length, ?_⟩
    rw [List.map_map]
    exact List.map_id _
  case attributed =>
    intro term hterm
    obtain ⟨a, ha, rfl⟩ := List.mem_map.mp hterm
    obtain ⟨o, ho, hkey, hget⟩ := hfirst a ((perm_ranking score merged sources.length).subset (mem_sliceTo ha))
    refine ⟨o, ho, hkey, ?_⟩
    rw [termOf, Dict.getD_eq, hget]
    rfl

end

/-- Two chunks in which three forms of a word are found, one of them twice. -/
def foundForms : List (List TermCandidate) :=
  [[⟨"Модели", "модели", ""⟩, ⟨"модель", "модель", ""⟩, ⟨"т.", "т.", ""⟩], [⟨"Модель", "модель", ""⟩]]

theorem aggregates_extractTerms_forms : ∃ maps groupKey merged terms,
    collectMaps id ⟨∅, ∅⟩ (["c0", "c1"].zip foundForms) = maps ∧
    groupLemmas maps.frequency.keys ∅ = .ok groupKey ∧ mergeNearDuplicates maps = .ok merged ∧
    extractTerms id ⟨∅, ∅⟩ (fun f _ _ => -f) (fun _ => .ok foundForms) [("c0", "a"), ("c1", "b")] 10 = .ok terms ∧
    Aggregates id ⟨∅, ∅⟩ (["c0", "c1"].zip foundForms) 10 maps merged (members groupKey).values terms :=
  aggregates_extractTerms id ⟨∅, ∅⟩ (fun f _ _ => -f) (fun _ => .ok foundForms) [("c0", "a"), ("c1", "b")]
    foundForms rfl rfl 10

end

end MasResearch.L2
