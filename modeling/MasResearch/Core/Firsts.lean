import Mathlib.Data.List.Nodup

/-!
# The first element of each key

`firsts key xs` keeps of the elements with one key the first, in the order of the list.
`slot key xs i` is where the element with the key of the `i`-th one stands afterwards;
indices are integers, and those outside the list have none.

* `firsts_concat`, `slot_concat`: the effect of one more element, for a loop that builds
  both from the left.
* `nodup_firsts`, `mem_keys_firsts`: every key stays, once.
* `slot_key`: the slot holds an element with the same key.
* `firsts_firsts`, `slot_firsts`: doing it again changes nothing.

`firstLeast before xs` is the first element that no other is before.
-/
namespace MasResearch

/-! ## Positions in a list -/

section

variable {α : Type}

/-- `xs[i]` for an index that is not counted from the end. -/
def itemAt (xs : List α) (i : Int) : Option α := if 0 ≤ i then xs[i.toNat]? else none

/-- `xs[:n]`. -/
def sliceTo (xs : List α) (n : Int) : List α :=
  if 0 ≤ n then xs.take n.toNat else xs.take (xs.length - (-n).toNat)

theorem mem_sliceTo {xs : List α} {n : Int} {x : α} (h : x ∈ sliceTo xs n) : x ∈ xs := by
  unfold sliceTo at h
  split at h <;> exact List.mem_of_mem_take h

theorem itemAt_natCast (xs : List α) (n : Nat) : itemAt xs n = xs[n]? := by simp [itemAt]

theorem itemAt_isSome {xs : List α} {i : Int} : (itemAt xs i).isSome ↔ 0 ≤ i ∧ i < xs.length := by
  unfold itemAt
  split
  · rw [isSome_getElem?]; omega
  · simp; omega

theorem itemAt_concat (xs : List α) (a : α) (i : Int) :
    itemAt (xs ++ [a]) i = if i = xs.length then some a else itemAt xs i := by
  unfold itemAt
  by_cases h0 : 0 ≤ i
  · rw [if_pos h0, if_pos h0, List.getElem?_append]
    by_cases he : i = xs.length
    · simp [he]
    · rw [if_neg he]
      split
      · rfl
      · rw [List.getElem?_eq_none (by simp; omega), List.getElem?_eq_none (by omega)]
  · rw [if_neg h0, if_neg h0, if_neg (by omega)]

theorem idxOf?_append_of_mem [DecidableEq α] {xs ys : List α} {a : α} (h : a ∈ xs) :
    (xs ++ ys).idxOf? a = xs.idxOf? a := by
  have hsome : (xs.idxOf? a).isSome := by
    rw [Option.isSome_iff_ne_none, ne_eq, List.idxOf?_eq_none_iff]; exact not_not.mpr h
  unfold List.idxOf? at hsome ⊢
  rw [List.findIdx?_append, Option.or_of_isSome hsome]

theorem idxOf?_concat_self [DecidableEq α] {xs : List α} {a : α} (h : a ∉ xs) :
    (xs ++ [a]).idxOf? a = some xs.length := by
  have hnone : xs.idxOf? a = none := List.idxOf?_eq_none_iff.mpr h
  unfold List.idxOf? at hnone ⊢
  rw [List.findIdx?_append, hnone]
  simp

theorem idxOf?_of_nodup [DecidableEq α] {xs : List α} (h : xs.Nodup) {n : Nat} {a : α} (ha : xs[n]? = some a) :
    xs.idxOf? a = some n := by
  obtain ⟨hn, rfl⟩ := List.getElem?_eq_some_iff.mp ha
  refine List.idxOf?_eq_some_iff.mpr ⟨hn, rfl, fun j hj he => ?_⟩
  exact absurd ((List.Nodup.getElem_inj_iff h).mp he) (by omega)

end

/-! ## Firsts -/

variable {α κ : Type} [DecidableEq κ]

def firsts (key : α → κ) : List α → List α
  | [] => []
  | a :: xs => a :: (firsts key xs).filter fun b => key b ≠ key a

section

variable (key : α → κ)

theorem firsts_sublist : ∀ xs : List α, (firsts key xs).Sublist xs
  | [] => .slnil
  | a :: xs => .cons_cons a (List.filter_sublist.trans (firsts_sublist xs))

theorem nodup_firsts : ∀ xs : List α, ((firsts key xs).map key).Nodup
  | [] => List.nodup_nil
  | a :: xs => by
    rw [firsts, List.map_cons, List.nodup_cons]
    refine ⟨fun h => ?_, (List.filter_sublist.map key).nodup (nodup_firsts xs)⟩
    obtain ⟨b, hb, he⟩ := List.mem_map.mp h
    simpa [he] using (List.mem_filter.mp hb).2

theorem mem_keys_firsts (k : κ) : ∀ xs : List α, k ∈ (firsts key xs).map key ↔ k ∈ xs.map key
  | [] => Iff.rfl
  | a :: xs => by
    have ih := mem_keys_firsts k xs
    rw [List.mem_map, List.mem_map] at ih
    rw [firsts, List.map_cons, List.map_cons, List.mem_cons, List.mem_cons, List.mem_map, List.mem_map, ← ih]
    by_cases hk : k = key a
    · simp [hk]
    · refine or_congr_right ⟨?_, ?_⟩
      · rintro ⟨b, hb, rfl⟩; exact ⟨b, List.mem_of_mem_filter hb, rfl⟩
      · rintro ⟨b, hb, rfl⟩; exact ⟨b, List.mem_filter.mpr ⟨hb, by simpa using hk⟩, rfl⟩

theorem firsts_concat (a : α) : ∀ xs : List α,
    firsts key (xs ++ [a]) = if key a ∈ xs.map key then firsts key xs else firsts key xs ++ [a]
  | [] => by simp [firsts]
  | b :: xs => by
    rw [List.cons_append, firsts, firsts_concat a xs]
    by_cases hxs : key a ∈ xs.map key
    · rw [if_pos hxs, List.map_cons, if_pos (List.mem_cons_of_mem _ hxs), firsts]
    · rw [if_neg hxs, List.filter_append]
      by_cases hb : key a = key b
      · rw [if_pos (by rw [List.map_cons, hb]; exact List.mem_cons_self), firsts]
        simp [hb]
      · rw [if_neg (by rw [List.map_cons, List.mem_cons, not_or]; exact ⟨hb, hxs⟩), firsts]
        simp [hb]

theorem firsts_eq_self : ∀ {xs : List α}, (xs.map key).Nodup → firsts key xs = xs
  | [], _ => rfl
  | a :: xs, h => by
    rw [List.map_cons, List.nodup_cons] at h
    rw [firsts, firsts_eq_self h.2, List.filter_eq_self.mpr]
    intro b hb
    rw [decide_eq_true_eq]
    exact fun he => h.1 (he ▸ List.mem_map_of_mem (f := key) hb)

theorem firsts_firsts (xs : List α) : firsts key (firsts key xs) = firsts key xs :=
  firsts_eq_self key (nodup_firsts key xs)

theorem two_le_firsts {xs : List α} :
    2 ≤ (firsts key xs).length ↔ ∃ a ∈ xs, ∃ b ∈ xs, key a ≠ key b := by
  have hnodup := nodup_firsts key xs
  constructor
  · intro h
    match hf : firsts key xs with
    | [] => rw [hf] at h; simp at h
    | [_] => rw [hf] at h; simp at h
    | a :: b :: rest =>
      have hsub : ∀ c ∈ a :: b :: rest, c ∈ xs := fun c hc => (firsts_sublist key xs).subset (hf ▸ hc)
      rw [hf, List.map_cons, List.map_cons, List.nodup_cons, List.mem_cons, not_or] at hnodup
      exact ⟨a, hsub a (by simp), b, hsub b (by simp), hnodup.1.1⟩
  · rintro ⟨a, ha, b, hb, hne⟩
    have hmem : ∀ c ∈ xs, key c ∈ (firsts key xs).map key := fun c hc =>
      (mem_keys_firsts key _ _).mpr (List.mem_map_of_mem hc)
    rw [← List.length_map (f := key)]
    by_contra hlt
    -- two keys do not fit into one place
    match hf : (firsts key xs).map key with
    | [] => have := hmem a ha; rw [hf] at this; cases this
    | [k] =>
      have hka := hmem a ha
      have hkb := hmem b hb
      rw [hf, List.mem_singleton] at hka hkb
      exact hne (hka.trans hkb.symm)
    | _ :: _ :: _ => rw [hf] at hlt; simp at hlt

/-! ## Slots -/

/-- Where the `i`-th element went. -/
def slot (xs : List α) (i : Int) : Option Nat :=
  (itemAt xs i).bind fun a => ((firsts key xs).map key).idxOf? (key a)

theorem idxOf?_firsts_concat (xs : List α) (a : α) {k : κ} (h : k ∈ xs.map key) :
    ((firsts key (xs ++ [a])).map key).idxOf? k = ((firsts key xs).map key).idxOf? k := by
  rw [firsts_concat]
  split
  · rfl
  · rw [List.map_append, idxOf?_append_of_mem ((mem_keys_firsts key k xs).mpr h)]

theorem mem_of_itemAt {xs : List α} {i : Int} {a : α} (h : itemAt xs i = some a) : a ∈ xs := by
  unfold itemAt at h
  split at h
  · exact List.mem_of_getElem? h
  · cases h

theorem slot_concat (xs : List α) (a : α) (i : Int) :
    slot key (xs ++ [a]) i =
      if i = xs.length then ((firsts key (xs ++ [a])).map key).idxOf? (key a) else slot key xs i := by
  unfold slot
  rw [itemAt_concat]
  split
  · rfl
  · cases hi : itemAt xs i with
    | none => rfl
    | some b => exact idxOf?_firsts_concat key xs a (List.mem_map_of_mem (mem_of_itemAt hi))

theorem slot_key {xs : List α} {i : Int} {a : α} (h : itemAt xs i = some a) :
    ∃ n b, slot key xs i = some n ∧ (firsts key xs)[n]? = some b ∧ key b = key a := by
  have hmem : key a ∈ (firsts key xs).map key :=
    (mem_keys_firsts key _ _).mpr (List.mem_map_of_mem (mem_of_itemAt h))
  cases hn : ((firsts key xs).map key).idxOf? (key a) with
  | none => exact absurd hmem (List.idxOf?_eq_none_iff.mp hn)
  | some n =>
    obtain ⟨hlt, he, -⟩ := List.idxOf?_eq_some_iff.mp hn
    rw [List.length_map] at hlt
    refine ⟨n, (firsts key xs)[n], ?_, List.getElem?_eq_getElem hlt, by simpa using he⟩
    rw [slot, h, Option.bind_some, hn]

theorem slot_isSome {xs : List α} {i : Int} : (slot key xs i).isSome ↔ 0 ≤ i ∧ i < xs.length := by
  rw [← itemAt_isSome]
  cases h : itemAt xs i with
  | none => simp [slot, h]
  | some a =>
    obtain ⟨n, -, hn, -⟩ := slot_key key h
    simp [hn]

theorem slot_lt {xs : List α} {i : Int} {n : Nat} (h : slot key xs i = some n) : n < (firsts key xs).length := by
  cases hi : itemAt xs i with
  | none => rw [slot, hi] at h; cases h
  | some a =>
    obtain ⟨m, b, hm, hb, -⟩ := slot_key key hi
    cases h.symm.trans hm
    exact (List.getElem?_eq_some_iff.mp hb).1

/-- On the firsts an index is its own slot. -/
theorem slot_firsts {xs : List α} {n : Nat} (h : n < (firsts key xs).length) :
    slot key (firsts key xs) n = some n := by
  rw [slot, itemAt_natCast, List.getElem?_eq_getElem h, Option.bind_some, firsts_firsts]
  exact idxOf?_of_nodup (nodup_firsts key xs) (by rw [List.getElem?_map, List.getElem?_eq_getElem h]; rfl)

end

/-! ## The first least element -/

section

variable (before : α → α → Bool)

def lesser (best a : α) : α := if before a best then a else best

/-- `min(xs, key=...)`, where `before` compares the keys. -/
def firstLeast : List α → Option α
  | [] => none
  | a :: xs => some (xs.foldl (lesser before) a)

variable {before}

theorem firstLeast_isSome {xs : List α} (h : xs ≠ []) : ∃ a, firstLeast before xs = some a := by
  obtain ⟨a, rest, rfl⟩ := List.exists_cons_of_ne_nil h
  exact ⟨_, rfl⟩

theorem foldl_lesser_mem : ∀ (xs : List α) (a : α), xs.foldl (lesser before) a ∈ a :: xs
  | [], a => List.mem_cons_self
  | b :: xs, a => by
    have ih := foldl_lesser_mem xs (lesser before a b)
    rw [List.foldl_cons]
    rcases List.mem_cons.mp ih with he | hm
    · rw [he, lesser]; split <;> simp
    · exact List.mem_cons_of_mem _ (List.mem_cons_of_mem _ hm)

theorem firstLeast_mem {xs : List α} {a : α} (h : firstLeast before xs = some a) : a ∈ xs := by
  cases xs with
  | nil => cases h
  | cons b xs => cases h; exact foldl_lesser_mem xs b

variable (htrans : ∀ a b c, before a b = true → before b c = true → before a c = true)
include htrans

/-- What is not before the best so far is not before a better one. -/
theorem foldl_lesser_least : ∀ {xs : List α} {a c : α}, before c a = false ∨ c ∈ xs →
    (∀ b, before b b = false) → before c (xs.foldl (lesser before) a) = false
  | [], a, c, h, _ => by simpa using h
  | b :: xs, a, c, h, hirr => by
    rw [List.foldl_cons]
    refine foldl_lesser_least ?_ hirr
    rw [List.mem_cons] at h
    unfold lesser
    rcases h with hca | rfl | hm
    · left
      split
      · rename_i hba
        exact Bool.eq_false_iff.mpr fun hcb => by rw [htrans _ _ _ hcb hba] at hca; cases hca
      · exact hca
    · left
      split
      · exact hirr c
      · rename_i hca; exact Bool.eq_false_iff.mpr hca
    · exact .inr hm

theorem firstLeast_least (hirr : ∀ b, before b b = false) {xs : List α} {a b : α} (hb : b ∈ xs)
    (h : firstLeast before xs = some a) : before b a = false := by
  cases xs with
  | nil => cases h
  | cons c xs =>
    cases h
    refine foldl_lesser_least htrans ?_ hirr
    rcases List.mem_cons.mp hb with rfl | hm
    · exact .inl (hirr _)
    · exact .inr hm

end

end MasResearch
