import MasResearch.Core.Recency
import MasResearch.L2Dispatch.Inbox
import Mathlib.Data.List.DropRight

/-!
# What an `IdempotentReceiver` remembers (`core/idempotency.py`)

The receiver holds the ids that were passed to `accept` last, as many as its size allows.
An id that is rejected was passed again, and an id that was evicted may come back.

* `remembers_afterCalls`: the cache is the most recent ids, whatever was accepted.
* `accept_false_iff`: `accept` rejects an id if fewer different ones than the cache has
  room for were passed since.
-/
namespace MasResearch.L2.IdempotentReceiver

/-- A receiver of this size after the calls. -/
def afterCalls (cacheSize : Nat) (h : 0 < cacheSize) (calls : List String) : IdempotentReceiver :=
  calls.foldl (fun r messageId => (r.accept messageId).2) (new cacheSize h)

/-- The cache is what was passed last; `past` has the last call first. -/
structure Remembers (n : Nat) (past : List String) (r : IdempotentReceiver) : Prop where
  cacheSize : r.cacheSize = n
  seen : r.seen = (recent n past).reverse

variable {n : Nat} {past : List String} {r : IdempotentReceiver}

theorem remembers_new (h : 0 < n) : Remembers n [] (new n h) where
  cacheSize := rfl
  seen := by simp [new, recent, firsts]

theorem reverse_erase {a : String} {xs : List String} (h : xs.Nodup) : xs.reverse.erase a = (xs.erase a).reverse := by
  rw [(List.nodup_reverse.mpr h).erase_eq_filter, h.erase_eq_filter, List.filter_reverse]

/-- What is left when the oldest of a full cache goes. -/
theorem tail_reverse_take {n : Nat} {xs : List String} (h : xs.length ≤ n + 1) :
    (if n + 1 ≤ xs.reverse.length then xs.reverse.tail else xs.reverse) = (xs.take n).reverse := by
  rw [List.length_reverse]
  split
  · have hlen : xs.length = n + 1 := by omega
    rw [List.tail_reverse, List.dropLast_eq_take, hlen, Nat.add_sub_cancel]
  · rw [List.take_of_length_le (by omega)]

theorem cacheSize_accept (r : IdempotentReceiver) (messageId : String) :
    (r.accept messageId).2.cacheSize = r.cacheSize := by
  unfold accept
  split <;> rfl

theorem seen_accept (r : IdempotentReceiver) (messageId : String) :
    (r.accept messageId).2.seen = (if messageId ∈ r.seen then r.seen.erase messageId
      else if r.cacheSize ≤ r.seen.length then r.seen.tail else r.seen) ++ [messageId] := by
  unfold accept
  split <;> rfl

theorem Remembers.accept (h : Remembers n past r) (messageId : String) :
    Remembers n (messageId :: past) (r.accept messageId).2 := by
  refine ⟨(cacheSize_accept r messageId).trans h.cacheSize, ?_⟩
  have hpos : 0 < n := h.cacheSize ▸ r.pos
  obtain ⟨k, rfl⟩ : ∃ k, n = k + 1 := ⟨n - 1, by omega⟩
  rw [seen_accept, h.cacheSize, h.seen]
  by_cases hseen : messageId ∈ recent (k + 1) past
  · rw [if_pos (List.mem_reverse.mpr hseen), reverse_erase (nodup_recent _ past), recent_hit hseen, List.reverse_cons]
  · rw [if_neg (fun hm => hseen (List.mem_reverse.mp hm)), tail_reverse_take (length_recent_le (k + 1) past),
      recent_miss hseen, List.reverse_cons]

theorem Remembers.accepts : ∀ {past : List String} {r : IdempotentReceiver} (calls : List String),
    Remembers n past r →
    Remembers n (calls.reverse ++ past) (calls.foldl (fun r messageId => (r.accept messageId).2) r)
  | _, _, [], h => h
  | past, r, messageId :: calls, h => by
    have hrest := Remembers.accepts calls (h.accept messageId)
    rwa [List.reverse_cons, List.append_assoc]

theorem remembers_afterCalls (h : 0 < n) (calls : List String) :
    Remembers n calls.reverse (afterCalls n h calls) := by
  have hrun := (remembers_new h).accepts calls
  rwa [List.append_nil] at hrun

/-- A call rejects an id that was passed before, unless `cacheSize` others were passed since. -/
theorem accept_false_iff (cacheSize : Nat) (h : 0 < cacheSize) (calls : List String) (messageId : String) :
    (((afterCalls cacheSize h calls).accept messageId).1 = false ↔
      messageId ∈ calls ∧ (calls.rtakeWhile (· ≠ messageId)).toFinset.card < cacheSize) ∧
    (afterCalls cacheSize h calls).seen.length ≤ cacheSize := by
  have hrem := remembers_afterCalls h calls
  constructor
  · rw [accept_fst, decide_eq_false_iff_not, not_not, hrem.seen, List.mem_reverse, mem_recent, List.mem_reverse,
      List.rtakeWhile, List.toFinset_reverse]
  · rw [hrem.seen, List.length_reverse]
    exact length_recent_le cacheSize _

/-- A cache for two ids: `b` is refreshed, so that `c` is evicted. -/
theorem accept_false_iff_refreshed :
    (((afterCalls 2 (by decide) ["a", "b", "c", "b", "d"]).accept "c").1 = false ↔
      "c" ∈ ["a", "b", "c", "b", "d"] ∧ (["a", "b", "c", "b", "d"].rtakeWhile (· ≠ "c")).toFinset.card < 2) ∧
    (afterCalls 2 (by decide) ["a", "b", "c", "b", "d"]).seen.length ≤ 2 :=
  accept_false_iff 2 (by decide) ["a", "b", "c", "b", "d"] "c"

end MasResearch.L2.IdempotentReceiver
