import Mathlib.Data.List.Nodup

/-!
# Insertion-ordered dictionaries

`Dict κ ν` is a Python `dict`: an association list in insertion order whose keys
are distinct, the distinctness being a field. `d.set k v` overwrites in place
when `k` is present and appends otherwise; `d.erase k` is `d.pop(k, None)` and `ofPairs` is
`dict(pairs)`.

Every operation is characterised by what `get?` returns afterwards
(`get?_set`, `get?_erase`, `get?_filterKeys`); membership is `(d.get? k).isSome`
(`mem_iff_get?`), and the iteration order `keys` lists each key once
(`nodup_keys`, `mem_keys`).
-/
namespace MasResearch

structure Dict (κ ν : Type) where
  entries : List (κ × ν)
  nodup : (entries.map Prod.fst).Nodup

namespace Dict

variable {κ ν : Type}

def empty : Dict κ ν := ⟨[], .nil⟩

instance : EmptyCollection (Dict κ ν) := ⟨empty⟩
instance : Inhabited (Dict κ ν) := ⟨empty⟩

/-- `list(d)`: the keys in insertion order. -/
def keys (d : Dict κ ν) : List κ := d.entries.map Prod.fst

instance : Membership κ (Dict κ ν) := ⟨fun d k => k ∈ d.keys⟩

/-- `d.values()`. -/
def values (d : Dict κ ν) : List ν := d.entries.map Prod.snd

theorem nodup_keys (d : Dict κ ν) : d.keys.Nodup := d.nodup

theorem mem_keys {d : Dict κ ν} {k : κ} : k ∈ d.keys ↔ k ∈ d := Iff.rfl

/-- The keys in this order, `f` giving the values. -/
def ofKeys (ks : List κ) (h : ks.Nodup) (f : κ → ν) : Dict κ ν :=
  ⟨ks.map fun k => (k, f k), by rw [List.map_map]; exact (List.map_id ks).symm ▸ h⟩

theorem keys_ofKeys {ks : List κ} (h : ks.Nodup) (f : κ → ν) : (ofKeys ks h f).keys = ks := by
  rw [keys, ofKeys, List.map_map]; exact List.map_id ks

variable [DecidableEq κ]

instance (d : Dict κ ν) (k : κ) : Decidable (k ∈ d) := inferInstanceAs (Decidable (k ∈ d.keys))

/-- `d.get(k)` with `none` for a missing key. -/
def get? (d : Dict κ ν) (k : κ) : Option ν := d.entries.lookup k

/-- `d.get(k, v)`. -/
def getD (d : Dict κ ν) (k : κ) (v : ν) : ν := (d.get? k).getD v

/-- `entries` with the value of `k` overwritten. -/
def overwrite (k : κ) (v : ν) (e : List (κ × ν)) : List (κ × ν) :=
  e.map fun p => if p.1 = k then (p.1, v) else p

theorem overwrite_fst (k : κ) (v : ν) (e : List (κ × ν)) :
    (overwrite k v e).map Prod.fst = e.map Prod.fst := by
  simp only [overwrite, List.map_map]
  congr 1
  funext p
  simp only [Function.comp]
  split <;> rfl

/-- `d[k] = v`. -/
def set (d : Dict κ ν) (k : κ) (v : ν) : Dict κ ν :=
  if h : k ∈ d then ⟨overwrite k v d.entries, by rw [overwrite_fst]; exact d.nodup⟩
  else ⟨d.entries ++ [(k, v)], by
    rw [List.map_append, List.nodup_append]
    refine ⟨d.nodup, List.nodup_singleton _, ?_⟩
    intro a ha b hb
    obtain rfl : b = k := by simpa using hb
    rintro rfl; exact h ha⟩

/-- `dict(pairs)`: of a repeated key the last value, where the first one stands. -/
def ofPairs (pairs : List (κ × ν)) : Dict κ ν := pairs.foldl (fun d p => d.set p.1 p.2) ∅

/-- `d.pop(k, None)`. -/
def erase (d : Dict κ ν) (k : κ) : Dict κ ν :=
  ⟨d.entries.filter fun p => p.1 ≠ k, (List.filter_sublist.map Prod.fst).nodup d.nodup⟩

/-- `{k: v for k, v in d.items() if p(k)}`. -/
def filterKeys (d : Dict κ ν) (p : κ → Bool) : Dict κ ν :=
  ⟨d.entries.filter fun e => p e.1, (List.filter_sublist.map Prod.fst).nodup d.nodup⟩

/-- `{k: f(v) for k, v in d.items()}`. -/
def mapVals {ν' : Type} (d : Dict κ ν) (f : ν → ν') : Dict κ ν' :=
  ⟨d.entries.map fun e => (e.1, f e.2), by rw [List.map_map]; exact d.nodup⟩

/-! ## `get?` after each operation -/

theorem lookup_cons_if (k : κ) (p : κ × ν) (e : List (κ × ν)) :
    (p :: e).lookup k = if k = p.1 then some p.2 else e.lookup k := by
  rw [show p = (p.1, p.2) from rfl, List.lookup_cons]
  by_cases h : k = p.1
  · simp [h]
  · have h' : (k == p.1) = false := by simpa using h
    simp [h, h']

theorem lookup_none {e : List (κ × ν)} {k : κ} : e.lookup k = none ↔ k ∉ e.map Prod.fst := by
  induction e with
  | nil => simp
  | cons p e ih => by_cases h : k = p.1 <;> simp [lookup_cons_if, ih, h]

theorem lookup_eq_some {e : List (κ × ν)} (h : (e.map Prod.fst).Nodup) {k : κ} {v : ν} :
    e.lookup k = some v ↔ (k, v) ∈ e := by
  induction e with
  | nil => simp
  | cons p e ih =>
    obtain ⟨k', v'⟩ := p
    rw [List.map_cons, List.nodup_cons] at h
    rw [lookup_cons_if, List.mem_cons, Prod.mk.injEq]
    by_cases hk : k = k'
    · subst hk
      have hne : ¬ (k, v) ∈ e := fun hm => h.1 (List.mem_map.mpr ⟨_, hm, rfl⟩)
      simp [hne, eq_comm]
    · simp [hk, ih h.2]

theorem get?_eq_some {d : Dict κ ν} {k : κ} {v : ν} : d.get? k = some v ↔ (k, v) ∈ d.entries :=
  lookup_eq_some d.nodup

theorem mem_iff_get? {d : Dict κ ν} {k : κ} : k ∈ d ↔ (d.get? k).isSome := by
  rw [← Option.ne_none_iff_isSome, ne_eq, get?, lookup_none]
  simp only [not_not]; rfl

theorem not_mem_iff {d : Dict κ ν} {k : κ} : k ∉ d ↔ d.get? k = none := by
  rw [mem_iff_get?]; simp

theorem mem_values {d : Dict κ ν} {v : ν} : v ∈ d.values ↔ ∃ k, d.get? k = some v := by
  simp [values, get?_eq_some]

theorem exists_get? {d : Dict κ ν} {k : κ} (h : k ∈ d) : ∃ v, d.get? k = some v :=
  Option.isSome_iff_exists.mp (mem_iff_get?.mp h)

theorem mem_of_get? {d : Dict κ ν} {k : κ} {v : ν} (h : d.get? k = some v) : k ∈ d := by
  rw [mem_iff_get?, h]; rfl

@[simp, grind =] theorem get?_empty (k : κ) : (∅ : Dict κ ν).get? k = none := rfl

@[simp] theorem not_mem_empty (k : κ) : ¬ k ∈ (∅ : Dict κ ν) := by simp [not_mem_iff]

theorem lookup_overwrite (k k' : κ) (v : ν) (e : List (κ × ν)) :
    (overwrite k v e).lookup k' = if k' = k ∧ k ∈ e.map Prod.fst then some v else e.lookup k' := by
  induction e with
  | nil => simp [overwrite]
  | cons p e ih =>
    simp only [overwrite] at ih ⊢
    by_cases h : k' = p.1 <;> by_cases hk : p.1 = k <;> grind [lookup_cons_if]

theorem lookup_append (e : List (κ × ν)) (k k' : κ) (v : ν) (h : k ∉ e.map Prod.fst) :
    (e ++ [(k, v)]).lookup k' = if k' = k then some v else e.lookup k' := by
  induction e with
  | nil => grind [lookup_cons_if]
  | cons p e ih => grind [lookup_cons_if]

@[simp, grind =] theorem get?_set (d : Dict κ ν) (k k' : κ) (v : ν) :
    (d.set k v).get? k' = if k' = k then some v else d.get? k' := by
  unfold set
  split
  · rename_i h
    have hk : k ∈ d.entries.map Prod.fst := h
    simp only [get?, lookup_overwrite, hk, and_true]
  · rename_i h
    exact lookup_append d.entries k k' v h

theorem lookup_filter (e : List (κ × ν)) (p : κ → Bool) (k : κ) :
    (e.filter fun x => p x.1).lookup k = if p k then e.lookup k else none := by
  induction e with
  | nil => simp
  | cons x e ih => by_cases h : k = x.1 <;> grind [lookup_cons_if]

@[simp, grind =] theorem get?_erase (d : Dict κ ν) (k k' : κ) :
    (d.erase k).get? k' = if k' = k then none else d.get? k' := by
  have := lookup_filter d.entries (fun x => decide (x ≠ k)) k'
  simp only [get?, erase]
  rw [this]
  by_cases h : k' = k <;> simp [h]

@[simp, grind =] theorem get?_filterKeys (d : Dict κ ν) (p : κ → Bool) (k : κ) :
    (d.filterKeys p).get? k = if p k then d.get? k else none := lookup_filter d.entries p k

@[simp, grind =] theorem get?_mapVals {ν' : Type} (d : Dict κ ν) (f : ν → ν') (k : κ) :
    (d.mapVals f).get? k = (d.get? k).map f := by
  simp only [get?, mapVals]
  induction d.entries with
  | nil => rfl
  | cons x e ih => by_cases h : k = x.1 <;> grind [lookup_cons_if]

@[simp, grind =] theorem mem_set {d : Dict κ ν} {k k' : κ} {v : ν} : k' ∈ d.set k v ↔ k' = k ∨ k' ∈ d := by
  simp only [mem_iff_get?, get?_set]
  by_cases h : k' = k <;> simp [h]

@[simp, grind =] theorem mem_erase {d : Dict κ ν} {k k' : κ} : k' ∈ d.erase k ↔ k' ≠ k ∧ k' ∈ d := by
  simp only [mem_iff_get?, get?_erase]
  by_cases h : k' = k <;> simp [h]

@[simp, grind =] theorem mem_filterKeys {d : Dict κ ν} {p : κ → Bool} {k : κ} :
    k ∈ d.filterKeys p ↔ p k = true ∧ k ∈ d := by
  simp only [mem_iff_get?, get?_filterKeys]
  by_cases h : p k = true <;> simp [h]

@[simp, grind =] theorem mem_mapVals {ν' : Type} {d : Dict κ ν} {f : ν → ν'} {k : κ} :
    k ∈ d.mapVals f ↔ k ∈ d := by
  simp only [mem_iff_get?, get?_mapVals, Option.isSome_map]

theorem get?_ofKeys {ks : List κ} (h : ks.Nodup) (f : κ → ν) (k : κ) :
    (ofKeys ks h f).get? k = if k ∈ ks then some (f k) else none := by
  split
  · rename_i hk
    exact get?_eq_some.mpr (List.mem_map.mpr ⟨k, hk, rfl⟩)
  · rename_i hk
    exact not_mem_iff.mp (by rwa [← mem_keys, keys_ofKeys])

/-- The keys of `ks` that `p` gives a value, with that value. -/
def collect {ν' : Type} (p : κ → Option ν') : List κ → Dict κ ν'
  | [] => ∅
  | k :: ks => match p k with
    | some v => (collect p ks).set k v
    | none => collect p ks

theorem get?_collect {ν' : Type} (p : κ → Option ν') (k : κ) :
    ∀ ks : List κ, (collect p ks).get? k = if k ∈ ks then p k else none
  | [] => by simp [collect]
  | a :: ks => by
    have ih := get?_collect p k ks
    by_cases h : k = a
    · subst h
      cases hp : p k with
      | some v => simp [collect, hp]
      | none => simp [collect, hp, ih]
    · cases hp : p a with
      | some v => simp [collect, hp, ih, h]
      | none => simp [collect, hp, ih, h]

/-- `len(d)`. -/
def size (d : Dict κ ν) : Nat := d.entries.length

/-- A new key comes last. -/
theorem entries_set {d : Dict κ ν} {k : κ} (h : k ∉ d) (v : ν) : (d.set k v).entries = d.entries ++ [(k, v)] := by
  rw [set, dif_neg h]

/-- New keys that are all different come last, in order. -/
theorem entries_foldl_set {α : Type} (key : α → κ) (val : α → ν) : ∀ {xs : List α} {d : Dict κ ν},
    (xs.map key).Nodup → (∀ x ∈ xs, key x ∉ d) →
    (xs.foldl (fun d x => d.set (key x) (val x)) d).entries = d.entries ++ xs.map fun x => (key x, val x)
  | [], d, _, _ => (List.append_nil _).symm
  | x :: xs, d, hnd, hnew => by
    rw [List.map_cons, List.nodup_cons] at hnd
    rw [List.forall_mem_cons] at hnew
    have hrest : ∀ y ∈ xs, key y ∉ d.set (key x) (val x) := by
      intro y hy hm
      rcases mem_set.mp hm with he | hm
      · exact hnd.1 (he ▸ List.mem_map_of_mem hy)
      · exact hnew.2 y hy hm
    rw [List.foldl_cons, entries_foldl_set key val hnd.2 hrest, entries_set hnew.1, List.append_assoc]
    rfl

/-- Pairs with distinct keys are the entries. -/
theorem entries_ofPairs {pairs : List (κ × ν)} (h : (pairs.map Prod.fst).Nodup) : (ofPairs pairs).entries = pairs := by
  rw [ofPairs, entries_foldl_set Prod.fst Prod.snd h fun _ _ => not_mem_empty _]
  exact List.map_id pairs

theorem size_eq_zero {d : Dict κ ν} (h : ∀ k, d.get? k = none) : d.size = 0 := by
  rw [size, List.length_eq_zero_iff]
  by_contra hne
  obtain ⟨p, hp⟩ := List.exists_mem_of_ne_nil _ hne
  have hm : p.1 ∈ d := List.mem_map_of_mem hp
  exact not_mem_iff.mpr (h p.1) hm

theorem size_set (d : Dict κ ν) (k : κ) (v : ν) : (d.set k v).size = if k ∈ d then d.size else d.size + 1 := by
  unfold set size
  split
  · simp [overwrite]
  · simp

theorem length_filter_ne {e : List (κ × ν)} (h : (e.map Prod.fst).Nodup) (k : κ) :
    (e.filter fun p => p.1 ≠ k).length + (if k ∈ e.map Prod.fst then 1 else 0) = e.length := by
  induction e with
  | nil => simp
  | cons p e ih =>
    rw [List.map_cons, List.nodup_cons] at h
    have := ih h.2
    by_cases hk : p.1 = k
    · subst hk
      rw [if_neg h.1, Nat.add_zero] at this
      have hp : ¬ (decide (p.1 ≠ p.1)) = true := by simp
      rw [List.filter_cons, if_neg hp, this]
      simp
    · have hk' : ¬ k = p.1 := Ne.symm hk
      simp only [List.filter_cons, decide_eq_true_eq, ne_eq, hk, not_false_eq_true, if_true, List.map_cons,
        List.mem_cons, hk', false_or, List.length_cons] at this ⊢
      omega

theorem size_erase (d : Dict κ ν) (k : κ) : (d.erase k).size + (if k ∈ d then 1 else 0) = d.size :=
  length_filter_ne d.nodup k

theorem getD_eq (d : Dict κ ν) (k : κ) (v : ν) : d.getD k v = (d.get? k).getD v := rfl

example : ((((∅ : Dict String Nat).set "a" 1).set "b" 2).set "a" 3).entries =
    [("a", 3), ("b", 2)] := by decide

end Dict

end MasResearch
