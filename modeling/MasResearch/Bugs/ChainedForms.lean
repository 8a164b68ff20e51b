import Mathlib.Data.Finset.Basic
import MasResearch.L2Agents.Terms

/-!
# Chained inflections are not merged into one term

Near-duplicates are grouped in one pass: a lemma joins the group of the first head it is a
near-duplicate of (src/agents/terminology.py:128-134). The comment above the loop calls it
a union-find, but a lemma that joins a group is never compared with those that are still
free, and the relation is not transitive. The heads of two groups are never
near-duplicates; the representatives, chosen by frequency afterwards, may be.

Counterexample: модели, met first, takes модель and leaves моделью, which is two letters
away. The more frequent модель is emitted for the first group, next to its own inflection
моделью.

* `fully_merged_iff`: over which lemmas the merge is complete in every order and with all
  frequencies.
-/
namespace MasResearch.Bugs.ChainedForms

open MasResearch.L2

/-- The three maps are about these lemmas. -/
structure Over (maps : CandidateMaps) (lemmas : Finset String) : Prop where
  frequency : ∀ a, a ∈ maps.frequency ↔ a ∈ lemmas
  chunkIds : ∀ a, a ∈ maps.chunkIds ↔ a ∈ lemmas
  firstSeen : ∀ a, a ∈ maps.firstSeen ↔ a ∈ lemmas
  positive : ∀ a n, maps.frequency.get? a = some n → 0 < n

/-- No two lemmas that come out are near-duplicates. -/
def FullyMerged (maps : CandidateMaps) : Prop :=
  ∃ out, mergeNearDuplicates maps = .ok out ∧
    ∀ a ∈ out.frequency, ∀ b ∈ out.frequency, a ≠ b → areNearDuplicateLemmas a b ≠ .ok true

/-- Some lemma has two near-duplicates that are none of each other. -/
def Chained (lemmas : Finset String) : Prop :=
  ∃ a ∈ lemmas, ∃ b ∈ lemmas, ∃ c ∈ lemmas,
    areNearDuplicateLemmas a b = .ok true ∧ areNearDuplicateLemmas b c = .ok true ∧
      areNearDuplicateLemmas a c ≠ .ok true

instance (lemmas : Finset String) : Decidable (Chained lemmas) :=
  inferInstanceAs (Decidable (∃ a ∈ lemmas, ∃ b ∈ lemmas, ∃ c ∈ lemmas,
    areNearDuplicateLemmas a b = .ok true ∧ areNearDuplicateLemmas b c = .ok true ∧
      areNearDuplicateLemmas a c ≠ .ok true))

theorem near_iff {a b : String} : nearDuplicate a b = true ↔ areNearDuplicateLemmas a b = .ok true := by
  simp [nearDuplicate]

theorem near_trans {lemmas : Finset String} (h : ¬ Chained lemmas) {a b c : String} (ha : a ∈ lemmas)
    (hb : b ∈ lemmas) (hc : c ∈ lemmas) (hab : nearDuplicate a b = true) (hbc : nearDuplicate b c = true) :
    nearDuplicate a c = true := by
  by_contra hac
  exact h ⟨a, ha, b, hb, c, hc, near_iff.mp hab, near_iff.mp hbc, fun he => hac (near_iff.mpr he)⟩

section

variable {maps : CandidateMaps} {lemmas : Finset String}

theorem Over.has (ho : Over maps lemmas) : ∀ a ∈ maps.frequency, maps.Has a := fun a ha =>
  ⟨ha, (ho.chunkIds a).mpr ((ho.frequency a).mp ha), (ho.firstSeen a).mpr ((ho.frequency a).mp ha)⟩

/-- The result, and whose representative each lemma in it is. -/
theorem Over.merge_ok (ho : Over maps lemmas) (hne : ∀ a ∈ lemmas, tokens a ≠ []) :
    ∃ out, mergeNearDuplicates maps = .ok out ∧ ∀ a, a ∈ out.frequency ↔
      ∃ h group, (members (grouping nearDuplicate maps.frequency.keys)).get? h = some group ∧
        representative maps.frequency group = some a :=
  L2.merge_ok ho.has fun a ha => hne a ((ho.frequency a).mp ha)

/-- Whoever is in a group is a lemma, a near-duplicate of the head. -/
theorem Over.near_head (ho : Over maps lemmas) (hne : ∀ a ∈ lemmas, tokens a ≠ []) {a h : String}
    (ha : (grouping nearDuplicate maps.frequency.keys).get? a = some h) :
    a ∈ lemmas ∧ h ∈ lemmas ∧ nearDuplicate h a = true := by
  have hg := grouped_grouping nearDuplicate_comm maps.frequency.keys
  have hmem : ∀ {k v}, (grouping nearDuplicate maps.frequency.keys).get? k = some v → k ∈ lemmas := fun hk =>
    (ho.frequency _).mp (mem_grouping.mp (Dict.mem_of_get? hk))
  refine ⟨hmem ha, hmem (hg.head ha), ?_⟩
  rcases hg.related ha with rfl | hr
  · exact nearDuplicate_self (hne a (hmem ha))
  · exact hr

/-- The heads are apart, and with them their groups. -/
theorem Over.fully_merged (ho : Over maps lemmas) (hne : ∀ a ∈ lemmas, tokens a ≠ []) (h : ¬ Chained lemmas) :
    FullyMerged maps := by
  obtain ⟨out, hout, hmem⟩ := ho.merge_ok hne
  refine ⟨out, hout, fun a ha b hb hab hnear => ?_⟩
  have hg := grouped_grouping nearDuplicate_comm maps.frequency.keys
  obtain ⟨ha', groupA, hgroupA, hrepA⟩ := (hmem a).mp ha
  obtain ⟨hb', groupB, hgroupB, hrepB⟩ := (hmem b).mp hb
  have hinA := ((mem_members hgroupA).2 a).mp (firstLeast_mem hrepA)
  have hinB := ((mem_members hgroupB).2 b).mp (firstLeast_mem hrepB)
  by_cases heads : ha' = hb'
  · subst heads
    cases hgroupA.symm.trans hgroupB
    exact hab (Option.some.inj (hrepA.symm.trans hrepB))
  · obtain ⟨hA, hheadA, hnearA⟩ := ho.near_head hne hinA
    obtain ⟨hB, hheadB, hnearB⟩ := ho.near_head hne hinB
    have hfar := hg.apart (hg.head hinA) (hg.head hinB) heads
    have hchain : nearDuplicate ha' b = true := near_trans h hheadA hA hB hnearA (near_iff.mpr hnear)
    rw [nearDuplicate_comm] at hnearB
    rw [near_trans h hheadA hB hheadB hchain hnearB] at hfar
    cases hfar

end

/-! ## The order and the frequencies that show a chain -/

section

variable {a b c : String}

/-- `b` and `c` are the frequent ones. -/
def chainFrequency (b c m : String) : Int := if m = b ∨ m = c then 2 else 1

def chainMaps (b c : String) (order : List String) (h : order.Nodup) : CandidateMaps where
  frequency := .ofKeys order h (chainFrequency b c)
  chunkIds := .ofKeys order h fun _ => {"c1"}
  firstSeen := .ofKeys order h fun m => (m, "", "c1")

theorem chainMaps_over {order : List String} (h : order.Nodup) : Over (chainMaps b c order h) order.toFinset := by
  have hmem : ∀ {ν : Type} (f : String → ν) (m : String), m ∈ Dict.ofKeys order h f ↔ m ∈ order.toFinset := by
    intro ν f m
    rw [← Dict.mem_keys, Dict.keys_ofKeys, List.mem_toFinset]
  refine ⟨hmem _, hmem _, hmem _, fun m n hn => ?_⟩
  rw [chainMaps, Dict.get?_ofKeys] at hn
  split at hn
  · cases hn; unfold chainFrequency; split <;> decide
  · cases hn

/-- `a` takes `b`, and `c` stays on its own. -/
theorem grouping_chain (rest : List String) (hab : nearDuplicate a b = true) (hac : nearDuplicate a c = false)
    (hca : c ≠ a) (hba : b ≠ a) :
    (grouping nearDuplicate (a :: b :: c :: rest)).get? b = some a ∧
      (grouping nearDuplicate (a :: b :: c :: rest)).get? c = some c := by
  have hfirst : ∀ m, (claim nearDuplicate a (b :: c :: rest) ((∅ : Dict String String).set a a)).get? m =
      if m = a then some a else if m ∈ b :: c :: rest ∧ nearDuplicate a m = true then some a else none := by
    intro m
    rw [get?_claim, Dict.get?_set]
    split <;> rfl
  have hb := hfirst b
  rw [if_neg hba, if_pos ⟨List.mem_cons_self, hab⟩] at hb
  have hc := hfirst c
  rw [if_neg hca, if_neg (by simp [hac])] at hc
  constructor
  · rw [grouping, groupFrom, if_neg (Dict.not_mem_empty a)]
    exact groupFrom_extends hb
  · rw [grouping, groupFrom, if_neg (Dict.not_mem_empty a), groupFrom, if_pos (Dict.mem_of_get? hb), groupFrom,
      if_neg (Dict.not_mem_iff.mpr hc)]
    exact groupFrom_extends (by rw [get?_claim, Dict.get?_set, if_pos rfl]; rfl)

/-- Each of the frequent lemmas stands for its group if the other is elsewhere. -/
theorem representative_chain {order group : List String} (h : order.Nodup) {m : String} (hm : m = b ∨ m = c)
    (hin : m ∈ group) (hall : ∀ k ∈ group, k ∈ order) (hother : ∀ k ∈ group, k ≠ m → k ≠ b ∧ k ≠ c) :
    representative (chainMaps b c order h).frequency group = some m := by
  have hfreq : ∀ k ∈ group, (chainMaps b c order h).frequency.getD k 0 = chainFrequency b c k := by
    intro k hk
    rw [chainMaps, Dict.getD_eq, Dict.get?_ofKeys, if_pos (hall k hk), Option.getD_some]
  refine representative_eq hin fun k hk hne => ?_
  obtain ⟨hb, hc⟩ := hother k hk hne
  rw [hfreq k hk, hfreq m hin, chainFrequency, chainFrequency, if_neg (not_or.mpr ⟨hb, hc⟩), if_pos hm]
  decide

/-- Both frequent lemmas come out. -/
theorem not_merged_chain {rest : List String} (h : (a :: b :: c :: rest).Nodup)
    (hne : ∀ m ∈ a :: b :: c :: rest, tokens m ≠ []) (hab : nearDuplicate a b = true)
    (hbc : nearDuplicate b c = true) (hac : nearDuplicate a c = false) :
    ¬ FullyMerged (chainMaps b c (a :: b :: c :: rest) h) := by
  have hca : c ≠ a := by rintro rfl; simp at h
  have hba : b ≠ a := by rintro rfl; simp at h
  have hbne : b ≠ c := by rintro rfl; simp at h
  obtain ⟨hb, hc⟩ := grouping_chain rest hab hac hca hba
  obtain ⟨out, hout, hmem⟩ := (chainMaps_over (b := b) (c := c) h).merge_ok fun m hm => hne m (List.mem_toFinset.mp hm)
  have hkeys : (chainMaps b c _ h).frequency.keys = a :: b :: c :: rest := Dict.keys_ofKeys h _
  rw [hkeys] at hmem
  have hemit : ∀ m hd, m = b ∨ m = c → (grouping nearDuplicate (a :: b :: c :: rest)).get? m = some hd →
      (∀ k, (grouping nearDuplicate (a :: b :: c :: rest)).get? k = some hd → k ≠ m → k ≠ b ∧ k ≠ c) →
      m ∈ out.frequency := by
    intro m hd hm hhead hother
    obtain ⟨group, hgroup⟩ := Dict.exists_get? (mem_members_keys.mpr ⟨m, hhead⟩)
    have hin := (mem_members hgroup).2
    refine (hmem m).mpr ⟨hd, group, hgroup, representative_chain h hm ((hin m).mpr hhead) ?_ ?_⟩
    · exact fun k hk => mem_grouping.mp (Dict.mem_of_get? ((hin k).mp hk))
    · exact fun k hk => hother k ((hin k).mp hk)
  rintro ⟨out', hout', hsep⟩
  cases hout.symm.trans hout'
  refine hsep b (hemit b a (.inl rfl) hb ?_) c (hemit c c (.inr rfl) hc ?_) hbne (near_iff.mp hbc)
  · intro k hk hkb
    refine ⟨hkb, ?_⟩
    rintro rfl
    exact hca (Option.some.inj (hc.symm.trans hk))
  · intro k hk hkc
    refine ⟨?_, hkc⟩
    rintro rfl
    exact hca (Option.some.inj (hk.symm.trans hb))

theorem exists_not_merged {lemmas : Finset String} (hne : ∀ a ∈ lemmas, tokens a ≠ []) (h : Chained lemmas) :
    ∃ maps, Over maps lemmas ∧ ¬ FullyMerged maps := by
  obtain ⟨a, ha, b, hb, c, hc, hab, hbc, hac⟩ := h
  rw [← near_iff] at hab hbc
  rw [ne_eq, ← near_iff] at hac
  have hba : b ≠ a := by rintro rfl; exact hac hbc
  have hcb : c ≠ b := by rintro rfl; exact hac hab
  have hca : c ≠ a := by rintro rfl; exact hac (nearDuplicate_self (hne _ ha))
  have hnodup : (a :: b :: c :: (((lemmas.erase a).erase b).erase c).toList).Nodup := by
    simp [Finset.nodup_toList, Ne.symm hba, Ne.symm hcb, Ne.symm hca]
  have hset : (a :: b :: c :: (((lemmas.erase a).erase b).erase c).toList).toFinset = lemmas := by
    ext m
    simp only [List.mem_toFinset, List.mem_cons, Finset.mem_toList, Finset.mem_erase]
    constructor
    · rintro (rfl | rfl | rfl | hm)
      · exact ha
      · exact hb
      · exact hc
      · exact hm.2.2.2
    · intro hm
      by_cases hma : m = a
      · exact .inl hma
      by_cases hmb : m = b
      · exact .inr (.inl hmb)
      by_cases hmc : m = c
      · exact .inr (.inr (.inl hmc))
      · exact .inr (.inr (.inr ⟨hmc, hmb, hma, hm⟩))
  have hover := chainMaps_over (b := b) (c := c) hnodup
  rw [hset] at hover
  refine ⟨_, hover, not_merged_chain hnodup (fun m hm => hne m ?_) hab hbc (by simpa using hac)⟩
  rw [← List.mem_toFinset, hset] at hm
  exact hm

end

/-! ## When the merge is complete -/

/-- **When no order and no frequencies leave near-duplicates apart.** -/
theorem fully_merged_iff (lemmas : Finset String) (hne : ∀ a ∈ lemmas, tokens a ≠ []) :
    (∀ maps, Over maps lemmas → FullyMerged maps) ↔ ¬ Chained lemmas := by
  constructor
  · intro h hchain
    obtain ⟨maps, hover, hno⟩ := exists_not_merged hne hchain
    exact hno (h maps hover)
  · exact fun h maps hover => hover.fully_merged hne h

/-- Forms that differ in the last letter are near-duplicates of each other. -/
theorem fully_merged_iff_endings : FullyMerged (chainMaps "двойной кавычки" "двойной кавычке"
    ["двойной кавычка", "двойной кавычки", "двойной кавычке"] (by decide)) :=
  (fully_merged_iff {"двойной кавычка", "двойной кавычки", "двойной кавычке"} (by decide +kernel)).mpr
    (by decide +kernel) _ (chainMaps_over _)

/-- One chunk, with модели first and the other two forms twice. -/
def modelForms : CandidateMaps :=
  chainMaps "модель" "моделью" ["модели", "модель", "моделью"] (by decide)

/-- **Counterexample**: модель and моделью are emitted side by side. -/
theorem model_forms : Over modelForms {"модели", "модель", "моделью"} ∧
    (mergeNearDuplicates modelForms).map (fun out => out.frequency.keys) = .ok ["модель", "моделью"] ∧
    areNearDuplicateLemmas "модель" "моделью" = .ok true ∧ ¬ FullyMerged modelForms := by
  have hkeys : (mergeNearDuplicates modelForms).map (fun out => out.frequency.keys) = .ok ["модель", "моделью"] := by
    decide +kernel
  have hnear : areNearDuplicateLemmas "модель" "моделью" = .ok true := by decide +kernel
  refine ⟨chainMaps_over _, hkeys, hnear, ?_⟩
  rintro ⟨out, hout, hsep⟩
  rw [hout] at hkeys
  have hmem : ∀ a ∈ ["модель", "моделью"], a ∈ out.frequency := by
    intro a ha
    rwa [← Except.ok.inj hkeys] at ha
  exact hsep _ (hmem "модель" (by simp)) _ (hmem "моделью" (by simp)) (by decide) hnear

end MasResearch.Bugs.ChainedForms
