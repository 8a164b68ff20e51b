import Mathlib.Data.List.Sort
import Mathlib.Data.Prod.Lex

/-!
# The first of a list by a key

`TopOf key n xs top`: `top` are the `n` elements of `xs` with the least keys, in the order of
their keys. `sorted(xs, key=key)[:n]` is one such list.

* `topOf_sortedBy`: sorting and cutting gives the top.
* `TopOf.keys`: its keys do not depend on the order of `xs`.
-/
namespace MasResearch

variable {α κ : Type} [LinearOrder κ] {key : α → κ} {n : Nat} {xs ys top top' : List α}

/-- `sorted(xs, key=key)`. -/
def sortedBy (key : α → κ) (xs : List α) : List α := xs.mergeSort fun a b => key a ≤ key b

structure TopOf (key : α → κ) (n : Nat) (xs top : List α) : Prop where
  length : top.length = min n xs.length
  sorted : top.Pairwise fun a b => key a ≤ key b
  rest : ∃ rest, (top ++ rest).Perm xs ∧ ∀ a ∈ top, ∀ b ∈ rest, key a ≤ key b

theorem perm_sortedBy (key : α → κ) (xs : List α) : (sortedBy key xs).Perm xs := List.mergeSort_perm _ _

theorem pairwise_sortedBy (key : α → κ) (xs : List α) : (sortedBy key xs).Pairwise fun a b => key a ≤ key b := by
  have h : (sortedBy key xs).Pairwise fun a b => decide (key a ≤ key b) = true := List.pairwise_mergeSort
    (fun a b c hab hbc => by simp only [decide_eq_true_eq] at *; exact hab.trans hbc)
    (fun a b => by simpa using le_total (key a) (key b)) xs
  exact h.imp fun hab => of_decide_eq_true hab

theorem topOf_sortedBy (key : α → κ) (n : Nat) (xs : List α) : TopOf key n xs ((sortedBy key xs).take n) where
  length := by rw [List.length_take, (perm_sortedBy key xs).length_eq]
  sorted := (pairwise_sortedBy key xs).take
  rest := by
    have hsplit := List.take_append_drop n (sortedBy key xs)
    refine ⟨(sortedBy key xs).drop n, hsplit.symm ▸ perm_sortedBy key xs, ?_⟩
    have h := pairwise_sortedBy key xs
    rw [← hsplit, List.pairwise_append] at h
    exact h.2.2

theorem TopOf.subset (h : TopOf key n xs top) : top ⊆ xs := by
  obtain ⟨rest, hperm, -⟩ := h.rest
  exact fun a ha => hperm.subset (List.mem_append_left _ ha)

theorem TopOf.nodup_map {β : Type} {f : α → β} (h : TopOf key n xs top) (hxs : (xs.map f).Nodup) :
    (top.map f).Nodup := by
  obtain ⟨rest, hperm, -⟩ := h.rest
  have hall := (hperm.map f).nodup_iff.mpr hxs
  rw [List.map_append] at hall
  exact hall.of_append_left

theorem TopOf.nodup (h : TopOf key n xs top) (hxs : xs.Nodup) : top.Nodup := by
  have hid : (top.map id).Nodup := h.nodup_map (by rwa [List.map_id])
  rwa [List.map_id] at hid

/-- The keys of the top are the first of all keys in their order. -/
theorem TopOf.map_eq (h : TopOf key n xs top) : top.map key = (sortedBy id (xs.map key)).take n := by
  obtain ⟨rest, hperm, hle⟩ := h.rest
  have hsorted : (top.map key ++ sortedBy id (rest.map key)).Pairwise (· ≤ ·) := by
    refine List.pairwise_append.mpr ⟨List.pairwise_map.mpr h.sorted, pairwise_sortedBy id _, ?_⟩
    intro x hx y hy
    obtain ⟨a, ha, rfl⟩ := List.mem_map.mp hx
    obtain ⟨b, hb, rfl⟩ := List.mem_map.mp ((perm_sortedBy id _).subset hy)
    exact hle a ha b hb
  have hall : (top.map key ++ sortedBy id (rest.map key)).Perm (sortedBy id (xs.map key)) := by
    refine ((perm_sortedBy id (rest.map key)).append_left _).trans ?_
    rw [← List.map_append]
    exact (hperm.map key).trans (perm_sortedBy id _).symm
  have heq := List.Perm.eq_of_pairwise (fun a b _ _ hab hba => le_antisymm hab hba) hsorted
    (pairwise_sortedBy id (xs.map key)) hall
  have hlen : (top.map key).length = min n xs.length := by rw [List.length_map, h.length]
  rw [← heq]
  rcases Nat.le_total n xs.length with hn | hn
  · rw [Nat.min_eq_left hn] at hlen
    rw [← hlen, List.take_left]
  · have hrest : rest = [] := by
      have hmap : (top.map key).length = top.length := List.length_map key
      have := hperm.length_eq
      rw [List.length_append, ← hmap, hlen] at this
      exact List.length_eq_zero_iff.mp (by omega)
    rw [hrest, show sortedBy id (([] : List α).map key) = [] from List.mergeSort_nil, List.append_nil,
      List.take_of_length_le (by omega)]

theorem TopOf.keys (h : TopOf key n xs top) (h' : TopOf key n ys top') (hperm : xs.Perm ys) :
    top.map key = top'.map key := by
  have hsort : sortedBy id (xs.map key) = sortedBy id (ys.map key) :=
    List.Perm.eq_of_pairwise (fun a b _ _ hab hba => le_antisymm hab hba) (pairwise_sortedBy id _)
      (pairwise_sortedBy id _)
      (((perm_sortedBy id _).trans (hperm.map key)).trans (perm_sortedBy id _).symm)
  rw [h.map_eq, h'.map_eq, hsort]

end MasResearch
