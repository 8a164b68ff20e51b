import MasResearch.Core.Firsts
import Mathlib.Data.Finset.Card

/-!
# The most recently used elements

`past` is a sequence of uses, the last one first; `recent n past` are the `n` different
elements used last, the last one first.

* `mem_recent`: an element is among them if it was used and fewer than `n` different ones
  were used since.
* `recent_hit`, `recent_miss`: the effect of one more use, for a cache that is kept up to
  date: a hit moves to the front, a miss pushes the oldest out.
-/
namespace MasResearch

variable {α : Type} [DecidableEq α]

def recent (n : Nat) (past : List α) : List α := (firsts id past).take n

theorem length_recent_le (n : Nat) (past : List α) : (recent n past).length ≤ n := List.length_take_le _ _

theorem nodup_firsts_id (past : List α) : (firsts id past).Nodup := List.map_id (firsts id past) ▸ nodup_firsts id past

theorem nodup_recent (n : Nat) (past : List α) : (recent n past).Nodup :=
  (List.take_sublist _ _).nodup (nodup_firsts_id past)

/-! ## Which elements are recent -/

theorem mem_firsts_id {a : α} {past : List α} : a ∈ firsts id past ↔ a ∈ past := by
  have h := mem_keys_firsts id a past
  rwa [List.map_id, List.map_id] at h

/-- What is used since `a` is the same for the uses and for their firsts. -/
theorem takeWhile_firsts (a : α) : ∀ past : List α,
    (firsts id past).takeWhile (· ≠ a) = firsts id (past.takeWhile (· ≠ a))
  | [] => rfl
  | b :: past => by
    rw [firsts, List.takeWhile_cons, List.takeWhile_cons]
    by_cases hb : b = a
    · simp [hb, firsts]
    · have hsame : (fun x => !decide (id x ≠ id b) || decide (x ≠ a)) = fun x => decide (x ≠ a) := by
        funext x
        by_cases hx : x = b <;> simp [hx, hb]
      rw [if_pos (by simpa using hb), if_pos (by simpa using hb), firsts, List.takeWhile_filter, hsame,
        takeWhile_firsts a past]

theorem length_firsts_id (past : List α) : (firsts id past).length = past.toFinset.card := by
  rw [← List.toFinset_card_of_nodup (nodup_firsts_id past)]
  congr 1
  ext a
  rw [List.mem_toFinset, List.mem_toFinset, mem_firsts_id]

theorem mem_take_iff {a : α} : ∀ {xs : List α} {n : Nat}, a ∈ xs.take n ↔ a ∈ xs ∧ (xs.takeWhile (· ≠ a)).length < n
  | [], n => by simp
  | x :: xs, 0 => by simp
  | x :: xs, n + 1 => by
    rw [List.take_succ_cons, List.mem_cons, List.mem_cons, mem_take_iff, List.takeWhile_cons]
    by_cases hx : x = a
    · simp [hx]
    · simp [hx, Ne.symm hx]

theorem mem_recent {a : α} {n : Nat} {past : List α} :
    a ∈ recent n past ↔ a ∈ past ∧ (past.takeWhile (· ≠ a)).toFinset.card < n := by
  rw [recent, mem_take_iff, mem_firsts_id, takeWhile_firsts, length_firsts_id]

/-! ## One more use -/

theorem recent_succ_cons (n : Nat) (a : α) (past : List α) :
    recent (n + 1) (a :: past) = a :: ((firsts id past).filter fun b => b ≠ a).take n := by
  rw [recent, firsts, List.take_succ_cons]; rfl

theorem filter_ne_of_not_mem {a : α} {xs : List α} (h : a ∉ xs) : (xs.filter fun b => b ≠ a) = xs := by
  refine List.filter_eq_self.mpr fun b hb => decide_eq_true ?_
  rintro rfl
  exact h hb

theorem take_filter_hit {a : α} : ∀ {xs : List α} {n : Nat}, xs.Nodup → a ∈ xs.take (n + 1) →
    (xs.filter fun b => b ≠ a).take n = (xs.take (n + 1)).filter fun b => b ≠ a
  | [], n, _, h => by simp at h
  | x :: xs, n, hnd, h => by
    rw [List.nodup_cons] at hnd
    rw [List.take_succ_cons] at h ⊢
    by_cases hx : x = a
    · subst hx
      have hrest : x ∉ xs.take n := fun hx => hnd.1 (List.mem_of_mem_take hx)
      rw [List.filter_cons, if_neg (by simp), List.filter_cons, if_neg (by simp), filter_ne_of_not_mem hnd.1,
        filter_ne_of_not_mem hrest]
    · have ha : a ∈ xs.take n := (List.mem_cons.mp h).resolve_left (Ne.symm hx)
      cases n with
      | zero => simp at ha
      | succ n =>
        rw [List.filter_cons, if_pos (by simpa using hx), List.filter_cons, if_pos (by simpa using hx),
          List.take_succ_cons, take_filter_hit hnd.2 ha]

theorem take_filter_miss {a : α} : ∀ {xs : List α} {n : Nat}, a ∉ xs.take (n + 1) →
    (xs.filter fun b => b ≠ a).take n = xs.take n
  | [], n, _ => by simp
  | x :: xs, 0, _ => rfl
  | x :: xs, n + 1, h => by
    rw [List.take_succ_cons, List.mem_cons, not_or] at h
    rw [List.filter_cons_of_pos (by simpa using Ne.symm h.1), List.take_succ_cons, List.take_succ_cons,
      take_filter_miss h.2]

theorem recent_hit {a : α} {n : Nat} {past : List α} (ha : a ∈ recent n past) :
    recent n (a :: past) = a :: (recent n past).erase a := by
  cases n with
  | zero => simp [recent] at ha
  | succ n =>
    rw [recent_succ_cons, take_filter_hit (nodup_firsts_id past) ha, (nodup_recent _ past).erase_eq_filter]
    exact congrArg _ (List.filter_congr fun b _ => by by_cases hb : b = a <;> simp [hb])

/-- A miss keeps `n - 1` of the others. -/
theorem recent_miss {a : α} {n : Nat} {past : List α} (ha : a ∉ recent (n + 1) past) :
    recent (n + 1) (a :: past) = a :: (recent (n + 1) past).take n := by
  rw [recent_succ_cons, take_filter_miss ha, recent, List.take_take, Nat.min_eq_left (Nat.le_succ n)]

end MasResearch
