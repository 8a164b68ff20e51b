import MasResearch.Core.Dict

/-!
# Grouping

`addAll` puts values into the lists of a dictionary, each under its key; `indicesBy` does
that with the positions of a list, and `scatter` writes to positions.

* `get?_addAll`: a group holds the values with its key, in order.
* `scatter_indicesBy`: what is computed group by group and stored by position is a `map`.

Greedily, `grouping r xs` walks over `xs` once. An element that is in no group yet becomes the head
of one, and the later elements that are in no group and related to it join it; the result
gives every element its head. `members` turns that round, from a head to its group.

* `get?_claim`, `groupFrom_extends`: what a head takes, and that it stays taken.
* `grouped_grouping`: everyone is related to their head, and no two heads are.
* `mem_members`: a group lists the elements with its head.
* `flatten_grouping`: the groups together list every element once.

Nothing is said about two elements of different groups: they may well be related when the
relation is not transitive.
-/
namespace MasResearch

variable {κ : Type} [DecidableEq κ]

/-! ## Lists in a dictionary -/

section

variable {α ν : Type}

/-- `groups[k].append(v)`, `groups` being a `defaultdict(list)`. -/
def addTo (groups : Dict κ (List ν)) (k : κ) (v : ν) : Dict κ (List ν) := groups.set k (groups.getD k [] ++ [v])

variable (key : α → κ) (val : α → ν)

def addAll (xs : List α) (groups : Dict κ (List ν)) : Dict κ (List ν) :=
  xs.foldl (fun groups x => addTo groups (key x) (val x)) groups

theorem getD_addAll (k : κ) : ∀ (xs : List α) (groups : Dict κ (List ν)),
    (addAll key val xs groups).getD k [] = groups.getD k [] ++ (xs.filter fun x => key x = k).map val
  | [], groups => by simp [addAll]
  | x :: xs, groups => by
    rw [addAll, List.foldl_cons, ← addAll, getD_addAll k xs, addTo, Dict.getD_eq, Dict.get?_set, List.filter_cons]
    by_cases hx : key x = k
    · simp [hx]
    · simp [hx, Ne.symm hx, Dict.getD_eq]

theorem mem_addAll {k : κ} : ∀ {xs : List α} {groups : Dict κ (List ν)},
    k ∈ addAll key val xs groups ↔ k ∈ groups ∨ ∃ x ∈ xs, key x = k
  | [], groups => by simp [addAll]
  | x :: xs, groups => by
    rw [addAll, List.foldl_cons, ← addAll, mem_addAll, addTo, Dict.mem_set, List.exists_mem_cons_iff, eq_comm (a := k)]
    tauto

/-- A group holds the values with its key, in order, and is not empty. -/
theorem get?_addAll {k : κ} {xs : List α} {vs : List ν} (h : (addAll key val xs ∅).get? k = some vs) :
    vs = (xs.filter fun x => key x = k).map val ∧ vs ≠ [] := by
  have hvs : vs = (xs.filter fun x => key x = k).map val := by
    have heq := getD_addAll key val k xs ∅
    rwa [Dict.getD_eq, h, Option.getD_some, Dict.getD_eq, Dict.get?_empty, Option.getD_none, List.nil_append] at heq
  refine ⟨hvs, hvs ▸ ?_⟩
  obtain ⟨x, hx, hk⟩ := ((mem_addAll key val).mp (Dict.mem_of_get? h)).resolve_left (Dict.not_mem_empty k)
  exact List.ne_nil_of_mem (List.mem_map_of_mem (List.mem_filter.mpr ⟨hx, by simpa using hk⟩))

/-! ## Positions by the key of their element -/

variable {β : Type} {xs : List α} {k : κ}

/-- `for i, x in enumerate(xs): groups[key(x)].append(i)`. -/
def indicesBy (xs : List α) : Dict κ (List Nat) := addAll (fun e => key e.1) Prod.snd xs.zipIdx ∅

variable {key}

theorem mem_indicesBy {is : List Nat} (h : (indicesBy key xs).get? k = some is) :
    is ≠ [] ∧ ∀ i, i ∈ is ↔ ∃ x, xs[i]? = some x ∧ key x = k := by
  obtain ⟨rfl, hne⟩ := get?_addAll _ _ h
  refine ⟨hne, fun i => ?_⟩
  simp only [List.mem_map, List.mem_filter, decide_eq_true_eq, Prod.exists, exists_eq_right,
    List.mem_zipIdx_iff_getElem?]

theorem mem_flatten_indicesBy {i : Nat} : i ∈ (indicesBy key xs).values.flatten ↔ i < xs.length := by
  rw [List.mem_flatten]
  constructor
  · rintro ⟨is, his, hi⟩
    obtain ⟨k, hk⟩ := Dict.mem_values.mp his
    obtain ⟨x, hx, -⟩ := ((mem_indicesBy hk).2 i).mp hi
    exact (List.getElem?_eq_some_iff.mp hx).1
  · intro hi
    have hin : key xs[i] ∈ indicesBy key xs :=
      (mem_addAll _ _).mpr (.inr ⟨(xs[i], i), List.mk_mem_zipIdx_iff_getElem?.mpr (List.getElem?_eq_getElem hi), rfl⟩)
    obtain ⟨is, his⟩ := Dict.exists_get? hin
    exact ⟨is, Dict.mem_values.mpr ⟨_, his⟩, ((mem_indicesBy his).2 i).mpr ⟨_, List.getElem?_eq_getElem hi, rfl⟩⟩

/-- `for i in is: ys[i] = f(i)`. -/
def scatter (f : Nat → β) (is : List Nat) (ys : List β) : List β := is.foldl (fun ys i => ys.set i (f i)) ys

theorem getElem?_scatter (f : Nat → β) (j : Nat) : ∀ (is : List Nat) (ys : List β),
    (scatter f is ys)[j]? = if j ∈ is ∧ j < ys.length then some (f j) else ys[j]?
  | [], ys => by simp [scatter]
  | i :: is, ys => by
    rw [scatter, List.foldl_cons, ← scatter, getElem?_scatter f j is, List.length_set, List.getElem?_set]
    by_cases hj : j = i
    · subst hj
      by_cases hlt : j < ys.length <;> simp [hlt]
    · simp [hj, Ne.symm hj]

/-- What is computed group by group and stored by position is a `map`. -/
theorem scatter_indicesBy {f : Nat → β} {g : α → β} {ys : List β} (hlen : ys.length = xs.length)
    (hf : ∀ i x, xs[i]? = some x → f i = g x) : scatter f (indicesBy key xs).values.flatten ys = xs.map g := by
  refine List.ext_getElem? fun i => ?_
  rw [getElem?_scatter, List.getElem?_map, hlen]
  by_cases hi : i < xs.length
  · rw [if_pos ⟨mem_flatten_indicesBy.mpr hi, hi⟩, hf i _ (List.getElem?_eq_getElem hi), List.getElem?_eq_getElem hi]
    rfl
  · rw [if_neg fun h => hi h.2, List.getElem?_eq_none (by omega), List.getElem?_eq_none (by omega)]
    rfl

end

/-! ## Heads -/

section

variable (r : κ → κ → Bool)

def claimStep (a : κ) (g : Dict κ κ) (b : κ) : Dict κ κ := if b ∉ g ∧ r a b = true then g.set b a else g

/-- The head `a` takes what is free and related to it. -/
def claim (a : κ) (rest : List κ) (g : Dict κ κ) : Dict κ κ := rest.foldl (claimStep r a) g

def groupFrom : List κ → Dict κ κ → Dict κ κ
  | [], g => g
  | a :: rest, g => if a ∈ g then groupFrom rest g else groupFrom rest (claim r a rest (g.set a a))

def grouping (xs : List κ) : Dict κ κ := groupFrom r xs ∅

variable {r}

theorem get?_claimStep (a : κ) (g : Dict κ κ) (b k : κ) :
    (claimStep r a g b).get? k = (g.get? k).or (if k = b ∧ r a k = true then some a else none) := by
  unfold claimStep
  split
  · rename_i h
    rw [Dict.get?_set]
    by_cases hk : k = b
    · subst hk; simp [h.2, Dict.not_mem_iff.mp h.1]
    · simp [hk]
  · rename_i h
    by_cases hk : k = b ∧ r a k = true
    · obtain ⟨rfl, hr⟩ := hk
      obtain ⟨v, hv⟩ := Dict.exists_get? (by simpa [hr] using h)
      rw [hv]; rfl
    · rw [if_neg hk, Option.or_none]

theorem get?_claim (a k : κ) : ∀ (rest : List κ) (g : Dict κ κ),
    (claim r a rest g).get? k = (g.get? k).or (if k ∈ rest ∧ r a k = true then some a else none)
  | [], g => by simp [claim]
  | b :: rest, g => by
    have ih := get?_claim a k rest (claimStep r a g b)
    rw [claim, List.foldl_cons, ← claim, ih, get?_claimStep, Option.or_assoc]
    congr 1
    by_cases hb : k = b
    · subst hb
      by_cases hr : r a k = true <;> simp [hr]
    · simp [hb]

/-- A head keeps its members. -/
theorem groupFrom_extends {k h : κ} : ∀ {xs : List κ} {g : Dict κ κ}, g.get? k = some h →
    (groupFrom r xs g).get? k = some h
  | [], _, hg => hg
  | a :: rest, g, hg => by
    rw [groupFrom]
    split
    · exact groupFrom_extends hg
    · rename_i ha
      have hne : k ≠ a := fun e => ha (Dict.mem_of_get? (e ▸ hg))
      exact groupFrom_extends (by rw [get?_claim, Dict.get?_set, if_neg hne, hg]; rfl)

theorem mem_claim {a k : κ} {rest : List κ} {g : Dict κ κ} :
    k ∈ claim r a rest g ↔ k ∈ g ∨ k ∈ rest ∧ r a k = true := by
  rw [Dict.mem_iff_get?, get?_claim, Option.isSome_or, Bool.or_eq_true, ← Dict.mem_iff_get?]
  refine or_congr_right ?_
  split <;> rename_i h <;> simp [h]

theorem mem_groupFrom {k : κ} : ∀ {xs : List κ} {g : Dict κ κ}, k ∈ groupFrom r xs g ↔ k ∈ xs ∨ k ∈ g
  | [], g => by simp [groupFrom]
  | a :: rest, g => by
    rw [groupFrom]
    split
    · rename_i ha
      rw [mem_groupFrom, List.mem_cons, or_assoc, or_iff_right_of_imp (a := k = a)]
      rintro rfl; exact .inr ha
    · rw [mem_groupFrom, mem_claim, Dict.mem_set, List.mem_cons]
      tauto

theorem mem_grouping {k : κ} {xs : List κ} : k ∈ grouping r xs ↔ k ∈ xs := by simp [grouping, mem_groupFrom]

/-- Between two heads: what is taken so far, with `rest` still to come. -/
structure Grouped (r : κ → κ → Bool) (rest : List κ) (g : Dict κ κ) : Prop where
  related : ∀ {k h}, g.get? k = some h → k = h ∨ r h k = true
  head : ∀ {k h}, g.get? k = some h → g.get? h = some h
  apart : ∀ {h h'}, g.get? h = some h → g.get? h' = some h' → h ≠ h' → r h h' = false
  clear : ∀ {h b}, g.get? h = some h → b ∈ rest → b ∉ g → r h b = false

theorem grouped_empty (xs : List κ) : Grouped r xs ∅ := by
  constructor <;> simp

theorem Grouped.skip {a : κ} {rest : List κ} {g : Dict κ κ} (hg : Grouped r (a :: rest) g) : Grouped r rest g where
  related := hg.related
  head := hg.head
  apart := hg.apart
  clear hh hb := hg.clear hh (List.mem_cons_of_mem _ hb)

/-- What an element has after `a` made itself a head. -/
theorem get?_promote {a k h : κ} {rest : List κ} {g : Dict κ κ}
    (hk : (claim r a rest (g.set a a)).get? k = some h) :
    g.get? k = some h ∨ h = a ∧ (k = a ∨ k ∈ rest ∧ r a k = true) := by
  rw [get?_claim, Dict.get?_set] at hk
  by_cases hka : k = a
  · rw [if_pos hka] at hk
    cases hk
    exact .inr ⟨rfl, .inl hka⟩
  · rw [if_neg hka, Option.or_eq_some_iff] at hk
    rcases hk with hk | ⟨-, hk⟩
    · exact .inl hk
    · split at hk
      · rename_i hr; cases hk; exact .inr ⟨rfl, .inr hr⟩
      · cases hk

theorem Grouped.promote {a : κ} {rest : List κ} {g : Dict κ κ} (hr : ∀ x y, r x y = r y x)
    (hg : Grouped r (a :: rest) g) (ha : a ∉ g) : Grouped r rest (claim r a rest (g.set a a)) := by
  have hself : (claim r a rest (g.set a a)).get? a = some a := by rw [get?_claim, Dict.get?_set, if_pos rfl]; rfl
  have hkept : ∀ {k h}, g.get? k = some h → (claim r a rest (g.set a a)).get? k = some h := by
    intro k h hk
    have hne : k ≠ a := fun e => ha (Dict.mem_of_get? (e ▸ hk))
    rw [get?_claim, Dict.get?_set, if_neg hne, hk]; rfl
  -- the old heads left `a` free, so it is related to none of them
  have hfree : ∀ {h}, g.get? h = some h → r h a = false := fun hh => hg.clear hh List.mem_cons_self ha
  constructor
  case related =>
    intro k h hk
    rcases get?_promote hk with hk | ⟨rfl, rfl | hrel⟩
    · exact hg.related hk
    · exact .inl rfl
    · exact .inr hrel.2
  case head =>
    intro k h hk
    rcases get?_promote hk with hk | ⟨rfl, -⟩
    · exact hkept (hg.head hk)
    · exact hself
  case apart =>
    intro h h' hh hh' hne
    rcases get?_promote hh with hold | ⟨rfl, -⟩ <;> rcases get?_promote hh' with hold' | ⟨rfl, -⟩
    · exact hg.apart hold hold' hne
    · exact hfree hold
    · rw [hr]; exact hfree hold'
    · exact absurd rfl hne
  case clear =>
    intro h b hh hb hbg
    rw [mem_claim, Dict.mem_set, not_or, not_or] at hbg
    rcases get?_promote hh with hh | ⟨rfl, -⟩
    · exact hg.clear hh (List.mem_cons_of_mem _ hb) hbg.1.2
    · exact Bool.eq_false_iff.mpr fun hrel => hbg.2 ⟨hb, hrel⟩

theorem grouped_groupFrom (hr : ∀ x y, r x y = r y x) : ∀ {xs : List κ} {g : Dict κ κ}, Grouped r xs g →
    Grouped r [] (groupFrom r xs g)
  | [], _, hg => hg
  | a :: rest, g, hg => by
    rw [groupFrom]
    split
    · exact grouped_groupFrom hr hg.skip
    · rename_i ha; exact grouped_groupFrom hr (hg.promote hr ha)

theorem grouped_grouping (hr : ∀ x y, r x y = r y x) (xs : List κ) : Grouped r [] (grouping r xs) :=
  grouped_groupFrom hr (grouped_empty xs)

end

/-! ## Members -/

/-- `groups.setdefault(key, []).append(lemma)`. -/
def addMember (groups : Dict κ (List κ)) (entry : κ × κ) : Dict κ (List κ) :=
  groups.set entry.2 (groups.getD entry.2 [] ++ [entry.1])

def members (g : Dict κ κ) : Dict κ (List κ) := g.entries.foldl addMember ∅

theorem mem_members_keys {g : Dict κ κ} {h : κ} : h ∈ members g ↔ ∃ k, g.get? k = some h := by
  refine (mem_addAll Prod.snd Prod.fst).trans ?_
  simp [Dict.get?_eq_some]

theorem members_eq {g : Dict κ κ} {h : κ} {ks : List κ} (hks : (members g).get? h = some ks) :
    ks = (g.entries.filter fun e => e.2 = h).map Prod.fst := (get?_addAll Prod.snd Prod.fst hks).1

/-- A group is not empty and lists who has its head. -/
theorem mem_members {g : Dict κ κ} {h : κ} {ks : List κ} (hks : (members g).get? h = some ks) :
    ks ≠ [] ∧ ∀ k, k ∈ ks ↔ g.get? k = some h := by
  have hall : ∀ k, k ∈ ks ↔ g.get? k = some h := by
    intro k
    rw [members_eq hks, Dict.get?_eq_some]
    simp
  obtain ⟨k, hk⟩ := mem_members_keys.mp (Dict.mem_of_get? hks)
  exact ⟨List.ne_nil_of_mem ((hall k).mpr hk), hall⟩

theorem nodup_member {g : Dict κ κ} {h : κ} {ks : List κ} (hks : (members g).get? h = some ks) : ks.Nodup := by
  rw [members_eq hks]
  exact (List.filter_sublist.map Prod.fst).nodup g.nodup

theorem mem_flatten_members {g : Dict κ κ} {k : κ} : k ∈ (members g).values.flatten ↔ k ∈ g := by
  rw [List.mem_flatten, Dict.mem_iff_get?, Option.isSome_iff_exists]
  constructor
  · rintro ⟨ks, hks, hk⟩
    obtain ⟨h, hh⟩ := Dict.mem_values.mp hks
    exact ⟨h, ((mem_members hh).2 k).mp hk⟩
  · rintro ⟨h, hh⟩
    obtain ⟨ks, hks⟩ := Dict.exists_get? (mem_members_keys.mpr ⟨k, hh⟩)
    exact ⟨ks, Dict.mem_values.mpr ⟨h, hks⟩, ((mem_members hks).2 k).mpr hh⟩

/-- Nobody is in two groups. -/
theorem nodup_flatten_members (g : Dict κ κ) : (members g).values.flatten.Nodup := by
  refine List.nodup_flatten.mpr ⟨fun ks hks => ?_, List.pairwise_map.mpr ?_⟩
  · obtain ⟨h, hh⟩ := Dict.mem_values.mp hks
    exact nodup_member hh
  · refine (List.pairwise_map.mp (members g).nodup).imp_of_mem fun {e e'} he he' hne k hk hk' => hne ?_
    have hhead := ((mem_members (Dict.get?_eq_some.mpr he)).2 k).mp hk
    have hhead' := ((mem_members (Dict.get?_eq_some.mpr he')).2 k).mp hk'
    exact Option.some.inj (hhead.symm.trans hhead')

theorem flatten_grouping (r : κ → κ → Bool) {xs : List κ} (h : xs.Nodup) :
    (members (grouping r xs)).values.flatten.Perm xs :=
  (List.perm_ext_iff_of_nodup (nodup_flatten_members _) h).mpr fun _ => mem_flatten_members.trans mem_grouping

omit [DecidableEq κ] in
/-- Members picked from different groups are different. -/
theorem nodup_map_pick {pick : List κ → κ} {groups : List (List κ)} (hnd : groups.flatten.Nodup)
    (hpick : ∀ group ∈ groups, pick group ∈ group) : (groups.map pick).Nodup := by
  refine List.pairwise_map.mpr ((List.nodup_flatten.mp hnd).2.imp_of_mem fun {a b} ha hb hdisjoint he => ?_)
  exact hdisjoint (hpick a ha) (he ▸ hpick b hb)

end MasResearch
