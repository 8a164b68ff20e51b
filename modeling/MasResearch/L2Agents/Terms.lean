import MasResearch.Core.Exec
import MasResearch.Core.Firsts
import MasResearch.Core.Grouping
import MasResearch.Core.Text
import MasResearch.L2Dispatch.Assembly

/-!
# The terminology agent (`agents/terminology.py`): near-duplicate lemmas

Two lemmas are near-duplicates when they differ in the inflection of the last word. The
lemmas are grouped greedily in the order in which they were met, and each group is emitted
under its most frequent member.

* `nearDuplicate_comm`, `nearDuplicate_self`: the relation is symmetric, and reflexive on
  lemmas that are not blank. It is not transitive.
* `groupLemmas_ok`: the nested loops compute `grouping nearDuplicate`.
* `merge_ok`: with an entry in every map for every lemma the merge raises nothing and
  emits the representatives of the groups.
* `mergeOf_mergeNearDuplicates`: the merged maps, entry by entry.
-/
namespace MasResearch.L2

/-! ## Near-duplicates -/

/-- mirrors src/agents/terminology.py:30 -/
def minSharedPrefix : Nat := 4

/-- mirrors src/agents/terminology.py:31 -/
def maxInflectionSuffix : Nat := 2

/-- mirrors src/agents/terminology.py:36 -/
def ruInflectionEndings : List Char := ['а', 'я', 'о', 'ё', 'е', 'у', 'ю', 'и', 'ы', 'э', 'ь', 'ъ']

def isEnding (c : Char) : Bool := c ∈ ruInflectionEndings

/-- mirrors src/agents/terminology.py:53-61 -/
def rule1SameLength (lastA lastB : Text) : Bool :=
  let sharedPrefix := lastA.dropLast
  sharedPrefix = lastB.dropLast ∧ minSharedPrefix ≤ sharedPrefix.length ∧
    lastA.getLast?.any isEnding ∧ lastB.getLast?.any isEnding

/-- mirrors src/agents/terminology.py:64-73 -/
def rule2PrefixRelationship (lastA lastB : Text) : Bool :=
  let (shorter, longer) := if lastA.length < lastB.length then (lastA, lastB) else (lastB, lastA)
  let extraLen := longer.length - shorter.length
  extraLen ≤ maxInflectionSuffix ∧ minSharedPrefix ≤ shorter.length ∧ shorter.isPrefixOf longer ∧
    (longer.drop shorter.length).all isEnding

/-- mirrors src/agents/terminology.py:104-108 -/
def nearLast (lastA lastB : Text) : Bool :=
  if lastA = lastB then true
  else if lastA.length = lastB.length then rule1SameLength lastA lastB
  else rule2PrefixRelationship lastA lastB

/-- `a.split()`. -/
def tokens (a : String) : List Text := splitWords a.toList

/-- Two blank lemmas have no last token.
mirrors src/agents/terminology.py:76-108 -/
def areNearDuplicateLemmas (a b : String) : Except PyError Bool :=
  let tokensA := tokens a
  let tokensB := tokens b
  if tokensA.length ≠ tokensB.length ∨ tokensA.dropLast ≠ tokensB.dropLast then .ok false
  else match tokensA.getLast?, tokensB.getLast? with
    | some lastA, some lastB => .ok (nearLast lastA lastB)
    | _, _ => .error .indexError

/-- What the function returns, if it does. -/
def nearDuplicate (a b : String) : Bool := areNearDuplicateLemmas a b = .ok true

theorem rule1SameLength_comm (a b : Text) : rule1SameLength a b = rule1SameLength b a := by
  have himp : ∀ {a b : Text}, rule1SameLength a b = true → rule1SameLength b a = true := by
    intro a b h
    simp only [rule1SameLength, decide_eq_true_eq] at h ⊢
    obtain ⟨hpre, hlen, ha, hb⟩ := h
    exact ⟨hpre.symm, hpre ▸ hlen, hb, ha⟩
  exact Bool.eq_iff_iff.mpr ⟨himp, himp⟩

theorem rule2PrefixRelationship_comm {a b : Text} (h : a.length ≠ b.length) :
    rule2PrefixRelationship a b = rule2PrefixRelationship b a := by
  unfold rule2PrefixRelationship
  rcases Nat.lt_or_gt_of_ne h with hlt | hlt
  · rw [if_pos hlt, if_neg (by omega)]
  · rw [if_neg (by omega), if_pos hlt]

theorem nearLast_comm (a b : Text) : nearLast a b = nearLast b a := by
  unfold nearLast
  by_cases h : a = b
  · rw [h]
  rw [if_neg h, if_neg (Ne.symm h)]
  by_cases hlen : a.length = b.length
  · rw [if_pos hlen, if_pos hlen.symm, rule1SameLength_comm]
  · rw [if_neg hlen, if_neg (Ne.symm hlen), rule2PrefixRelationship_comm hlen]

theorem areNearDuplicateLemmas_comm (a b : String) : areNearDuplicateLemmas a b = areNearDuplicateLemmas b a := by
  unfold areNearDuplicateLemmas
  by_cases h : (tokens a).length ≠ (tokens b).length ∨ (tokens a).dropLast ≠ (tokens b).dropLast
  · rw [if_pos h, if_pos (h.imp Ne.symm Ne.symm)]
  · rw [if_neg h, if_neg fun h' => h (h'.imp Ne.symm Ne.symm)]
    cases (tokens a).getLast? <;> cases (tokens b).getLast? <;> simp [nearLast_comm]

theorem nearDuplicate_comm (a b : String) : nearDuplicate a b = nearDuplicate b a := by
  rw [nearDuplicate, areNearDuplicateLemmas_comm]; rfl

theorem getLast?_tokens {a : String} (h : tokens a ≠ []) : ∃ last, (tokens a).getLast? = some last :=
  ⟨_, List.getLast?_eq_some_getLast h⟩

theorem nearDuplicate_self {a : String} (h : tokens a ≠ []) : nearDuplicate a a = true := by
  obtain ⟨last, hlast⟩ := getLast?_tokens h
  simp [nearDuplicate, areNearDuplicateLemmas, hlast, nearLast]

/-- Only a blank lemma makes the function raise. -/
theorem areNearDuplicateLemmas_ok {a : String} (h : tokens a ≠ []) (b : String) :
    areNearDuplicateLemmas a b = .ok (nearDuplicate a b) := by
  have hok : ∃ x, areNearDuplicateLemmas a b = .ok x := by
    unfold areNearDuplicateLemmas
    by_cases hne : (tokens a).length ≠ (tokens b).length ∨ (tokens a).dropLast ≠ (tokens b).dropLast
    · exact ⟨false, if_pos hne⟩
    · have hlen : (tokens a).length = (tokens b).length := by rw [not_or, not_not] at hne; exact hne.1
      obtain ⟨lastA, hA⟩ := getLast?_tokens h
      obtain ⟨lastB, hB⟩ := getLast?_tokens (a := b) fun hb => h (List.length_eq_zero_iff.mp (by rw [hlen, hb]; rfl))
      rw [if_neg hne, hA, hB]
      exact ⟨_, rfl⟩
  obtain ⟨x, hx⟩ := hok
  cases x <;> simp [nearDuplicate, hx]

/-! ## Groups -/

/-- mirrors src/agents/terminology.py:133-134 -/
def claimLemma (a : String) (groupKey : Dict String String) (b : String) : Except PyError (Dict String String) := do
  if b ∈ groupKey then return groupKey
  return if ← areNearDuplicateLemmas a b then groupKey.set b a else groupKey

/-- mirrors src/agents/terminology.py:128-134 -/
def groupLemmas : List String → Dict String String → Except PyError (Dict String String)
  | [], groupKey => return groupKey
  | a :: rest, groupKey => do
    if a ∈ groupKey then groupLemmas rest groupKey
    else groupLemmas rest (← rest.foldlM (claimLemma a) (groupKey.set a a))

theorem claimLemma_ok {a : String} (h : tokens a ≠ []) (groupKey : Dict String String) (b : String) :
    claimLemma a groupKey b = .ok (claimStep nearDuplicate a groupKey b) := by
  unfold claimLemma claimStep
  by_cases hb : b ∈ groupKey
  · rw [if_pos hb, if_neg fun hn => hn.1 hb]; rfl
  · rw [if_neg hb, areNearDuplicateLemmas_ok h]
    cases hnear : nearDuplicate a b
    · rw [if_neg (by simp)]; rfl
    · rw [if_pos ⟨hb, rfl⟩]; rfl

theorem groupLemmas_ok : ∀ {lemmas : List String} (groupKey : Dict String String), (∀ a ∈ lemmas, tokens a ≠ []) →
    groupLemmas lemmas groupKey = .ok (groupFrom nearDuplicate lemmas groupKey)
  | [], _, _ => rfl
  | a :: rest, groupKey, h => by
    rw [List.forall_mem_cons] at h
    have hclaim : rest.foldlM (claimLemma a) (groupKey.set a a) =
        .ok (claim nearDuplicate a rest (groupKey.set a a)) :=
      foldlM_ok fun g b _ => claimLemma_ok h.1 g b
    rw [groupLemmas, groupFrom]
    by_cases ha : a ∈ groupKey
    · rw [if_pos ha, if_pos ha]; exact groupLemmas_ok groupKey h.2
    · rw [if_neg ha, if_neg ha, hclaim]; exact groupLemmas_ok _ h.2

/-! ## Merging -/

/-- mirrors src/agents/terminology.py:111 -/
structure CandidateMaps where
  frequency : Dict String Int := ∅
  chunkIds : Dict String (Finset String) := ∅
  firstSeen : Dict String (String × String × String) := ∅

/-- `d[k]`. -/
def item {ν : Type} (d : Dict String ν) (k : String) : Except PyError ν :=
  match d.get? k with
  | some v => .ok v
  | none => .error (.keyError k)

/-- `(-frequency[a], a) < (-frequency[b], b)`. -/
def preferred (frequency : Dict String Int) (a b : String) : Bool :=
  frequency.getD b 0 < frequency.getD a 0 ∨ frequency.getD a 0 = frequency.getD b 0 ∧ a < b

/-- `min(members, key=lambda lemma: (-frequency[lemma], lemma))`. -/
def representative (frequency : Dict String Int) (group : List String) : Option String :=
  firstLeast (preferred frequency) group

theorem preferred_trans {frequency : Dict String Int} (a b c : String) (hab : preferred frequency a b = true)
    (hbc : preferred frequency b c = true) : preferred frequency a c = true := by
  simp only [preferred, decide_eq_true_eq] at hab hbc ⊢
  rcases hab with hab | ⟨heq, hab⟩ <;> rcases hbc with hbc | ⟨heq', hbc⟩
  · exact .inl (by omega)
  · exact .inl (by omega)
  · exact .inl (by omega)
  · exact .inr ⟨heq.trans heq', String.lt_trans hab hbc⟩

theorem preferred_irrefl {frequency : Dict String Int} (a : String) : preferred frequency a a = false := by
  simp [preferred]

theorem representative_isSome (frequency : Dict String Int) {group : List String} (h : group ≠ []) :
    ∃ rep, representative frequency group = some rep := firstLeast_isSome h

theorem representative_eq {frequency : Dict String Int} {group : List String} {a : String} (ha : a ∈ group)
    (hmax : ∀ m ∈ group, m ≠ a → frequency.getD m 0 < frequency.getD a 0) :
    representative frequency group = some a := by
  obtain ⟨rep, hrep⟩ := representative_isSome frequency (List.ne_nil_of_mem ha)
  by_cases he : rep = a
  · rw [hrep, he]
  · have hleast := firstLeast_least preferred_trans preferred_irrefl ha hrep
    have hlt := hmax rep (firstLeast_mem hrep) he
    simp [preferred, hlt] at hleast

/-- mirrors src/agents/terminology.py:146-154 -/
def mergeGroup (maps merged : CandidateMaps) (group : List String) : Except PyError CandidateMaps := do
  -- the key of `min` raises for a missing lemma, so the default in it is never read
  let frequencies ← group.mapM (item maps.frequency)
  match representative maps.frequency group with
  | none => throw (.valueError "min() iterable argument is empty")
  | some rep =>
    let ids ← group.mapM (item maps.chunkIds)
    let seen ← item maps.firstSeen rep
    return { frequency := merged.frequency.set rep frequencies.sum
             chunkIds := merged.chunkIds.set rep (ids.foldl (· ∪ ·) ∅)
             firstSeen := merged.firstSeen.set rep seen }

/-- mirrors src/agents/terminology.py:114-155 -/
def mergeNearDuplicates (maps : CandidateMaps) : Except PyError CandidateMaps := do
  let groupKey ← groupLemmas maps.frequency.keys ∅
  (members groupKey).entries.foldlM (fun merged group => mergeGroup maps merged group.2) {}

/-- Every map has an entry for the lemma. -/
structure CandidateMaps.Has (maps : CandidateMaps) (a : String) : Prop where
  frequency : a ∈ maps.frequency
  chunkIds : a ∈ maps.chunkIds
  firstSeen : a ∈ maps.firstSeen

theorem item_ok {ν : Type} {d : Dict String ν} {k : String} (h : k ∈ d) (v : ν) : item d k = .ok (d.getD k v) := by
  obtain ⟨w, hw⟩ := Dict.exists_get? h
  rw [item, Dict.getD_eq, hw]; rfl

/-- `merged` with a group under its representative. -/
def emitted (maps merged : CandidateMaps) (group : List String) (rep : String) : CandidateMaps where
  frequency := merged.frequency.set rep (group.map fun m => maps.frequency.getD m 0).sum
  chunkIds := merged.chunkIds.set rep ((group.map fun m => maps.chunkIds.getD m ∅).foldl (· ∪ ·) ∅)
  firstSeen := merged.firstSeen.set rep (maps.firstSeen.getD rep ("", "", ""))

theorem mergeGroup_ok {maps : CandidateMaps} {group : List String} (hall : ∀ m ∈ group, maps.Has m) {rep : String}
    (hrep : representative maps.frequency group = some rep) (merged : CandidateMaps) :
    mergeGroup maps merged group = .ok (emitted maps merged group rep) := by
  have hfreq := mapM_ok fun m hm => item_ok (hall m hm).frequency 0
  have hids := mapM_ok fun m hm => item_ok (hall m hm).chunkIds ∅
  have hseen := item_ok (hall rep (firstLeast_mem hrep)).firstSeen ("", "", "")
  simp only [mergeGroup, hfreq, hrep, hids, hseen]
  rfl

theorem mergeGroups_ok {maps : CandidateMaps} : ∀ {groups : List (String × List String)} (merged : CandidateMaps),
    (∀ g ∈ groups, g.2 ≠ [] ∧ ∀ m ∈ g.2, maps.Has m) →
    ∃ out, groups.foldlM (fun merged g => mergeGroup maps merged g.2) merged = .ok out ∧
      ∀ a, a ∈ out.frequency ↔ a ∈ merged.frequency ∨ ∃ g ∈ groups, representative maps.frequency g.2 = some a
  | [], merged, _ => ⟨merged, rfl, by simp⟩
  | g :: groups, merged, h => by
    rw [List.forall_mem_cons] at h
    obtain ⟨rep, hrep⟩ := representative_isSome maps.frequency h.1.1
    obtain ⟨out, hout, hmem⟩ := mergeGroups_ok (emitted maps merged g.2 rep) h.2
    refine ⟨out, ?_, fun a => ?_⟩
    · rw [List.foldlM_cons, mergeGroup_ok h.1.2 hrep]; exact hout
    · rw [hmem, emitted, Dict.mem_set, List.exists_mem_cons_iff, hrep, Option.some.injEq, eq_comm (a := rep)]
      tauto

/-- The lemmas that come out stand for the groups. -/
theorem merge_ok {maps : CandidateMaps} (hhas : ∀ a ∈ maps.frequency, maps.Has a)
    (hne : ∀ a ∈ maps.frequency, tokens a ≠ []) :
    ∃ out, mergeNearDuplicates maps = .ok out ∧ ∀ a, a ∈ out.frequency ↔
      ∃ h group, (members (grouping nearDuplicate maps.frequency.keys)).get? h = some group ∧
        representative maps.frequency group = some a := by
  have hgroups : ∀ g ∈ (members (grouping nearDuplicate maps.frequency.keys)).entries,
      g.2 ≠ [] ∧ ∀ m ∈ g.2, maps.Has m := by
    rintro ⟨h, group⟩ hg
    obtain ⟨hnil, hmem⟩ := mem_members (Dict.get?_eq_some.mpr hg)
    refine ⟨hnil, fun m hm => hhas m ?_⟩
    exact mem_grouping.mp (Dict.mem_of_get? ((hmem m).mp hm))
  obtain ⟨out, hout, hmem⟩ := mergeGroups_ok {} hgroups
  refine ⟨out, ?_, fun a => ?_⟩
  · rw [mergeNearDuplicates, groupLemmas_ok ∅ hne]; exact hout
  · rw [hmem, or_iff_right (Dict.not_mem_empty a)]
    simp [Dict.get?_eq_some]

/-! ## The merged maps -/

/-- The member a group is emitted under. -/
def repOf (frequency : Dict String Int) (group : List String) : String := (representative frequency group).getD ""

/-- The merged maps have one entry for each group, in order. -/
structure MergeOf (maps merged : CandidateMaps) (groups : List (List String)) : Prop where
  frequency : merged.frequency.entries = groups.map fun group =>
    (repOf maps.frequency group, (group.map fun m => maps.frequency.getD m 0).sum)
  chunkIds : merged.chunkIds.entries = groups.map fun group =>
    (repOf maps.frequency group, (group.map fun m => maps.chunkIds.getD m ∅).foldl (· ∪ ·) ∅)
  firstSeen : merged.firstSeen.entries = groups.map fun group =>
    (repOf maps.frequency group, maps.firstSeen.getD (repOf maps.frequency group) ("", "", ""))

theorem representative_eq_repOf (frequency : Dict String Int) {group : List String} (h : group ≠ []) :
    representative frequency group = some (repOf frequency group) := by
  obtain ⟨rep, hrep⟩ := representative_isSome frequency h
  rw [repOf, hrep, Option.getD_some]

theorem repOf_mem (frequency : Dict String Int) {group : List String} (h : group ≠ []) :
    repOf frequency group ∈ group := firstLeast_mem (representative_eq_repOf frequency h)

theorem repOf_least (frequency : Dict String Int) {group : List String} {m : String} (hm : m ∈ group) :
    preferred frequency m (repOf frequency group) = false :=
  firstLeast_least preferred_trans preferred_irrefl hm (representative_eq_repOf frequency (List.ne_nil_of_mem hm))

/-- The groups in turn, each under its representative. -/
def emitAll (maps : CandidateMaps) (groups : List (List String)) : CandidateMaps :=
  groups.foldl (fun merged group => emitted maps merged group (repOf maps.frequency group)) {}

/-- One of the three maps. -/
theorem entries_emitAll {ν : Type} {maps : CandidateMaps} {groups : List (List String)}
    (field : CandidateMaps → Dict String ν) {val : List String → ν} (hempty : field {} = ∅)
    (hset : ∀ merged group, field (emitted maps merged group (repOf maps.frequency group)) =
      (field merged).set (repOf maps.frequency group) (val group))
    (hreps : (groups.map (repOf maps.frequency)).Nodup) :
    (field (emitAll maps groups)).entries = groups.map fun group => (repOf maps.frequency group, val group) := by
  have hfold : field (emitAll maps groups) =
      groups.foldl (fun d group => d.set (repOf maps.frequency group) (val group)) (field {}) :=
    (List.foldl_hom field fun merged group => (hset merged group).symm).symm
  rw [hfold, hempty, Dict.entries_foldl_set _ _ hreps (by simp)]
  rfl

theorem mergeOf_emitAll (maps : CandidateMaps) {groups : List (List String)} (hnd : groups.flatten.Nodup)
    (hne : ∀ group ∈ groups, group ≠ []) : MergeOf maps (emitAll maps groups) groups := by
  have hreps := nodup_map_pick hnd fun group hg => repOf_mem maps.frequency (hne group hg)
  exact
    { frequency := entries_emitAll CandidateMaps.frequency rfl (fun _ _ => rfl) hreps
      chunkIds := entries_emitAll CandidateMaps.chunkIds rfl (fun _ _ => rfl) hreps
      firstSeen := entries_emitAll CandidateMaps.firstSeen rfl (fun _ _ => rfl) hreps }

/-- The groups hold every lemma once, and the merged maps have an entry for each of them. -/
theorem mergeOf_mergeNearDuplicates {maps : CandidateMaps} (hhas : ∀ a ∈ maps.frequency, maps.Has a)
    (hne : ∀ a ∈ maps.frequency, tokens a ≠ []) :
    ∃ groupKey merged, groupLemmas maps.frequency.keys ∅ = .ok groupKey ∧ mergeNearDuplicates maps = .ok merged ∧
      (members groupKey).values.flatten.Perm maps.frequency.keys ∧ MergeOf maps merged (members groupKey).values := by
  have hgroup := groupLemmas_ok ∅ hne
  have hperm := flatten_grouping nearDuplicate maps.frequency.nodup_keys
  have hnil : ∀ group ∈ (members (grouping nearDuplicate maps.frequency.keys)).values, group ≠ [] := by
    intro group hg
    obtain ⟨h, hh⟩ := Dict.mem_values.mp hg
    exact (mem_members hh).1
  have hmerge : ∀ merged, ∀ group ∈ (members (grouping nearDuplicate maps.frequency.keys)).values,
      mergeGroup maps merged group = .ok (emitted maps merged group (repOf maps.frequency group)) := by
    intro merged group hg
    refine mergeGroup_ok (fun m hm => hhas m ?_) (representative_eq_repOf maps.frequency (hnil group hg)) merged
    exact hperm.subset (List.mem_flatten.mpr ⟨group, hg, hm⟩)
  refine ⟨_, emitAll maps _, hgroup, ?_, hperm, mergeOf_emitAll maps (nodup_flatten_members _) hnil⟩
  rw [mergeNearDuplicates, hgroup]
  have hfold := foldlM_ok (s := {}) hmerge
  rw [Dict.values, List.foldlM_map] at hfold
  exact hfold

end MasResearch.L2
