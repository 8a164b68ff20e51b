import Mathlib.Data.List.Sort
import Mathlib.Data.String.Basic

/-!
# Text keys

Strings are compared character by character. `numbered s n` is a key made of a stem
and a decimal counter, the usual id of the n-th part of something; `byKey` orders a
list by a text key, as `ORDER BY` does.

* `numbered_inj`: the key determines the stem and the counter.
* `numbered_lt`, `numbered_ten_lt_two`: the keys of one stem follow the counter up to
  nine and no further.
* `filter_byKey`: a part of the list whose keys increase comes out of `byKey` in its
  own order.
-/
namespace MasResearch

/-- `f"{stem}-{n}"`. -/
def numbered (stem : String) (n : Nat) : String := stem ++ "-" ++ toString n

theorem toString_inj {m n : Nat} (h : toString m = toString n) : m = n := by
  have hd : Nat.toDigits 10 m = Nat.toDigits 10 n := by
    simpa only [Nat.toString_eq_repr, Nat.toList_repr] using congrArg String.toList h
  simpa using congrArg (fun digits => Nat.ofDigitChars 10 digits 0) hd

theorem dash_not_mem_toString (n : Nat) : '-' ∉ (toString n).toList := by
  rw [Nat.toString_eq_repr, Nat.toList_repr]
  intro h
  have := Nat.isDigit_of_mem_toDigits (by decide) (by decide) h
  revert this; decide

/-- Two lists split at the last `a` alike. -/
theorem append_cons_inj {α : Type} [DecidableEq α] {a : α} {xs xs' ys ys' : List α} (hy : a ∉ ys)
    (hy' : a ∉ ys') (h : xs ++ a :: ys = xs' ++ a :: ys') : xs = xs' ∧ ys = ys' := by
  have key : ∀ {us vs : List α}, a ∉ vs → (us ++ a :: vs).reverse.takeWhile (· ≠ a) = vs.reverse := by
    intro us vs hv
    have hall : ∀ b ∈ vs.reverse, decide (b ≠ a) = true := by
      intro b hb
      rw [decide_eq_true_eq]
      rintro rfl; exact hv (List.mem_reverse.mp hb)
    rw [List.reverse_append, List.reverse_cons, List.append_assoc, List.takeWhile_append_of_pos hall]
    simp
  have hys : ys = ys' := by
    have := congrArg (fun l : List α => l.reverse.takeWhile (· ≠ a)) h
    rw [key hy, key hy'] at this
    exact List.reverse_injective this
  subst hys
  exact ⟨List.append_cancel_right h, rfl⟩

theorem numbered_inj {s t : String} {m n : Nat} (h : numbered s m = numbered t n) : s = t ∧ m = n := by
  have h' := congrArg String.toList h
  simp only [numbered, String.toList_append, List.append_assoc] at h'
  obtain ⟨h1, h2⟩ := append_cons_inj (a := '-') (dash_not_mem_toString m) (dash_not_mem_toString n) h'
  exact ⟨String.toList_inj.mp h1, toString_inj (String.toList_inj.mp h2)⟩

theorem numbered_lt_of_toString {m n : Nat} (s : String) (h : toString m < toString n) :
    numbered s m < numbered s n := by
  rw [String.lt_iff_toList_lt] at h ⊢
  simp only [numbered, String.toList_append]
  exact List.append_left_lt h

/-- Single digits are in numeric order. -/
theorem numbered_lt (s : String) {m n : Nat} (h : m < n) (hn : n < 10) : numbered s m < numbered s n := by
  have hdigits : ∀ n < 10, ∀ m < n, (toString m).toList < (toString n).toList := by decide
  exact numbered_lt_of_toString s (hdigits n hn m h)

/-- The eleventh part comes before the third. -/
theorem numbered_ten_lt_two (s : String) : numbered s 10 < numbered s 2 :=
  numbered_lt_of_toString s (show (toString 10).toList < (toString 2).toList by decide)

/-! ## Ordering by a key -/

section

variable {α : Type} (key : α → String)

/-- `ORDER BY key`. -/
def byKey (xs : List α) : List α := xs.insertionSort fun a b => key a ≤ key b

instance total_key : Std.Total fun a b : α => key a ≤ key b := ⟨fun a b => le_total (key a) (key b)⟩

instance isTrans_key : IsTrans α fun a b => key a ≤ key b := ⟨fun _ _ _ => le_trans⟩

theorem byKey_perm (xs : List α) : (byKey key xs).Perm xs := List.perm_insertionSort _ xs

theorem pairwise_byKey (xs : List α) : (byKey key xs).Pairwise fun a b => key a ≤ key b :=
  List.pairwise_insertionSort _ xs

variable {key}

theorem filter_byKey {xs ys : List α} {p : α → Bool} (hp : (xs.filter p).Perm ys)
    (hy : ys.Pairwise fun a b => key a < key b) : (byKey key xs).filter p = ys := by
  refine List.Perm.eq_of_pairwise ?_ ((pairwise_byKey key xs).filter p)
    (hy.imp le_of_lt) (((byKey_perm key xs).filter p).trans hp)
  intro a b ha hb hab hba
  have hmem : a ∈ ys := (((byKey_perm key xs).filter p).trans hp).subset ha
  have hnd : (ys.map key).Nodup := List.pairwise_map.mpr (hy.imp ne_of_lt)
  exact List.inj_on_of_nodup_map hnd hmem hb (le_antisymm hab hba)

end

end MasResearch
