import MasResearch.Core.Text
import Mathlib.Algebra.GroupWithZero.Nat

/-!
# Joined texts

`join sep parts` is `sep.join(parts)`.

* `join_append`, `join_flatten`: joining what is joined is one join, if no group of parts is
  empty.
* `length_join`: every part costs its length and one separator.
* `joinNonempty_flatten`: the same for a join that leaves out what is empty, whatever the groups.
* `trimmed_join`: parts without whitespace at their ends leave none at the ends.
-/
namespace MasResearch

def join (sep : Text) (parts : List Text) : Text := sep.intercalate parts

variable {sep : Text}

theorem join_nil : join sep [] = [] := rfl

theorem join_singleton (part : Text) : join sep [part] = part := List.intercalate_singleton

theorem join_cons {part : Text} {parts : List Text} (h : parts ≠ []) :
    join sep (part :: parts) = part ++ sep ++ join sep parts := List.intercalate_cons_of_ne_nil h

theorem join_append : ∀ {xs ys : List Text}, xs ≠ [] → ys ≠ [] →
    join sep (xs ++ ys) = join sep xs ++ sep ++ join sep ys
  | [], _, hx, _ => absurd rfl hx
  | [x], ys, _, hy => by rw [List.singleton_append, join_cons hy, join_singleton]
  | x :: x' :: xs, ys, _, hy => by
    rw [List.cons_append, join_cons (by simp), join_append (List.cons_ne_nil x' xs) hy,
      join_cons (List.cons_ne_nil x' xs)]
    simp only [List.append_assoc]

theorem join_flatten : ∀ {groups : List (List Text)}, (∀ group ∈ groups, group ≠ []) →
    join sep (groups.map (join sep)) = join sep groups.flatten
  | [], _ => rfl
  | [group], _ => by simp [join_singleton]
  | group :: group' :: groups, h => by
    rw [List.forall_mem_cons] at h
    have hne : (group' :: groups).flatten ≠ [] := by
      rw [List.flatten_cons, ne_eq, List.append_eq_nil_iff]
      exact fun hnil => h.2 group' List.mem_cons_self hnil.1
    have hflat : (group :: group' :: groups).flatten = group ++ (group' :: groups).flatten := rfl
    rw [List.map_cons, join_cons (by simp), join_flatten h.2, hflat, join_append h.1 hne]

theorem length_join : ∀ {parts : List Text}, parts ≠ [] →
    (join sep parts).length + sep.length = (parts.map fun part => part.length + sep.length).sum
  | [], h => absurd rfl h
  | [part], _ => by simp [join_singleton]
  | part :: part' :: parts, _ => by
    have ih := length_join (List.cons_ne_nil part' parts)
    rw [join_cons (List.cons_ne_nil part' parts), List.map_cons, List.sum_cons, ← ih]
    simp only [List.length_append]
    omega

theorem Trimmed.append {x y : Text} (hx : Trimmed x) (hy : Trimmed y) (between : Text) :
    Trimmed (x ++ between ++ y) where
  first := by
    obtain ⟨c, rest, rfl, hc⟩ := hx.first
    exact ⟨c, rest ++ between ++ y, rfl, hc⟩
  last := by
    obtain ⟨rest, c, rfl, hc⟩ := hy.last
    exact ⟨x ++ between ++ rest, c, by simp, hc⟩

theorem trimmed_join : ∀ {parts : List Text}, parts ≠ [] → (∀ part ∈ parts, Trimmed part) → Trimmed (join sep parts)
  | [], h, _ => absurd rfl h
  | [part], _, h => by rw [join_singleton]; exact h part List.mem_cons_self
  | part :: part' :: parts, _, h => by
    rw [List.forall_mem_cons] at h
    rw [join_cons (List.cons_ne_nil part' parts)]
    exact h.1.append (trimmed_join (List.cons_ne_nil part' parts) h.2) sep

/-! ## Leaving out what is empty -/

/-- `sep.join(p for p in parts if p)`. -/
def joinNonempty (sep : Text) (parts : List Text) : Text := join sep (parts.filter fun part => part ≠ [])

theorem join_eq_nil {parts : List Text} (h : ∀ part ∈ parts, part ≠ []) : join sep parts = [] ↔ parts = [] := by
  constructor
  · intro hnil
    cases parts with
    | nil => rfl
    | cons part rest =>
      rw [List.forall_mem_cons] at h
      by_cases hrest : rest = []
      · rw [hrest, join_singleton] at hnil
        exact absurd hnil h.1
      · rw [join_cons hrest, List.append_eq_nil_iff, List.append_eq_nil_iff] at hnil
        exact absurd hnil.1.1 h.1
  · rintro rfl; rfl

/-- Two texts with a separator, which neither gets when the other is empty. -/
def glue (sep x y : Text) : Text := if x = [] then y else if y = [] then x else x ++ sep ++ y

theorem glue_assoc (x y z : Text) : glue sep (glue sep x y) z = glue sep x (glue sep y z) := by
  by_cases hx : x = []
  · simp [glue, hx]
  by_cases hy : y = []
  · simp [glue, hx, hy]
  by_cases hz : z = []
  · simp [glue, hx, hy, hz]
  · simp [glue, hx, hy, hz]

theorem joinNonempty_cons (part : Text) (parts : List Text) :
    joinNonempty sep (part :: parts) = glue sep part (joinNonempty sep parts) := by
  have hnil : joinNonempty sep parts = [] ↔ (parts.filter fun part => part ≠ []) = [] :=
    join_eq_nil fun part hpart => by simpa using (List.mem_filter.mp hpart).2
  unfold glue joinNonempty at *
  by_cases hpart : part = []
  · rw [if_pos hpart, List.filter_cons_of_neg (by simpa using hpart)]
  · rw [if_neg hpart, List.filter_cons_of_pos (by simpa using hpart)]
    by_cases hrest : (parts.filter fun part => part ≠ []) = []
    · rw [if_pos (hnil.mpr hrest), hrest, join_singleton]
    · rw [if_neg (fun h => hrest (hnil.mp h)), join_cons hrest]

theorem joinNonempty_append : ∀ xs ys : List Text,
    joinNonempty sep (xs ++ ys) = glue sep (joinNonempty sep xs) (joinNonempty sep ys)
  | [], ys => rfl
  | x :: xs, ys => by
    rw [List.cons_append, joinNonempty_cons, joinNonempty_append xs ys, joinNonempty_cons, glue_assoc]

theorem mem_joinNonempty {c : Char} : ∀ {parts : List Text}, c ∈ joinNonempty sep parts →
    c ∈ sep ∨ ∃ part ∈ parts, c ∈ part
  | [], h => by cases h
  | part :: parts, h => by
    have hrest : c ∈ joinNonempty sep parts → c ∈ sep ∨ ∃ p ∈ part :: parts, c ∈ p := fun h =>
      (mem_joinNonempty h).imp_right fun ⟨p, hp, hc⟩ => ⟨p, List.mem_cons_of_mem _ hp, hc⟩
    rw [joinNonempty_cons, glue] at h
    split_ifs at h
    · exact hrest h
    · exact .inr ⟨part, List.mem_cons_self, h⟩
    · rcases List.mem_append.mp h with h | h
      · rcases List.mem_append.mp h with h | h
        · exact .inr ⟨part, List.mem_cons_self, h⟩
        · exact .inl h
      · exact hrest h

/-- However the parts are grouped, one join of those that are not empty is the same. -/
theorem joinNonempty_flatten : ∀ groups : List (List Text),
    joinNonempty sep (groups.map (joinNonempty sep)) = joinNonempty sep groups.flatten
  | [] => rfl
  | group :: groups => by
    rw [List.map_cons, joinNonempty_cons, joinNonempty_flatten groups, List.flatten_cons, joinNonempty_append]

end MasResearch
