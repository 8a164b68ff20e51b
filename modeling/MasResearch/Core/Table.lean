import Mathlib.Data.List.Nodup
import Mathlib.Data.List.Perm.Basic

/-!
# Tables with a primary key

A `Table key` is a list of rows no two of which have the same key, the distinctness
being a field. The order of the rows means nothing: results about what a statement
leaves are stated up to `List.Perm`, or as membership.

`delete`, `insert?`, `merge` and `update` are the SQL statements; `insert?` of rows with
a key that is taken is `none`. A part of a table that a predicate selects is `select`,
and each statement comes with what it selects afterwards:

* `select_replace`: deleting the rows of a predicate and inserting rows that meet it.
* `select_merge`: overwriting a row by its key.
* `select_update`: changing columns the predicate does not read.
* `select_insert?`: inserting the rows of a predicate that selected none.

A reader that takes the first row it meets depends on the order, unless there is at most
one such row (`find?_perm`, `length_filter_le_one_of_reverse`).
-/
namespace MasResearch

structure Table {ρ κ : Type} (key : ρ → κ) where
  rows : List ρ
  nodup : (rows.map key).Nodup

namespace Table

variable {ρ κ : Type} {key : ρ → κ}

def empty : Table key := ⟨[], List.nodup_nil⟩

/-- `SELECT ... WHERE p`. -/
def select (t : Table key) (p : ρ → Bool) : List ρ := t.rows.filter p

/-- `DELETE ... WHERE p`. -/
def delete (t : Table key) (p : ρ → Bool) : Table key :=
  ⟨t.rows.filter fun r => !p r, (List.filter_sublist.map key).nodup t.nodup⟩

/-- `UPDATE` of columns other than the key. -/
def update (t : Table key) (f : ρ → ρ) (h : ∀ r, key (f r) = key r) : Table key :=
  ⟨t.rows.map f, by
    rw [List.map_map, show key ∘ f = key from funext h]
    exact t.nodup⟩

section

variable [DecidableEq κ]

/-- `INSERT`; a taken key fails. -/
def insert? (t : Table key) (rows : List ρ) : Option (Table key) :=
  if h : ((t.rows ++ rows).map key).Nodup then some ⟨t.rows ++ rows, h⟩ else none

/-- `INSERT ... ON CONFLICT (key) DO UPDATE`. -/
def merge (t : Table key) (row : ρ) : Table key where
  rows := (t.rows.filter fun r => key r ≠ key row) ++ [row]
  nodup := by
    rw [List.map_append, List.nodup_append]
    refine ⟨(List.filter_sublist.map key).nodup t.nodup, List.nodup_singleton _, ?_⟩
    intro a ha b hb he
    obtain ⟨r, hr, rfl⟩ := List.mem_map.mp ha
    obtain rfl : b = key row := by simpa using hb
    have hne := (List.mem_filter.mp hr).2
    simp [he] at hne

end

/-! ## What is selected afterwards -/

/-- At most one row of `p`, if these share their key. -/
theorem length_select_le_one {t : Table key} {p : ρ → Bool} {k : κ}
    (h : ∀ r ∈ t.rows, p r = true → key r = k) : (t.select p).length ≤ 1 := by
  have hnodup : ((t.select p).map key).Nodup := (List.filter_sublist.map key).nodup t.nodup
  have hkey : ∀ r ∈ t.select p, key r = k := fun r hr =>
    h r (List.mem_of_mem_filter hr) (List.mem_filter.mp hr).2
  match hsel : t.select p with
  | [] => simp
  | [_] => simp
  | a :: b :: _ =>
    rw [hsel] at hnodup hkey
    have hne := (List.nodup_cons.mp hnodup).1
    rw [List.map_cons, hkey a (by simp), hkey b (by simp)] at hne
    exact absurd List.mem_cons_self hne

theorem select_delete_self (t : Table key) (p : ρ → Bool) : (t.delete p).select p = [] := by
  rw [select, List.filter_eq_nil_iff]
  intro r hr
  simpa [delete] using (List.mem_filter.mp hr).2

/-- Rows the deletion spares. -/
theorem select_delete {t : Table key} {p q : ρ → Bool} (h : ∀ r ∈ t.rows, q r = true → p r = false) :
    (t.delete p).select q = t.select q := by
  rw [select, delete, select, List.filter_filter]
  refine List.filter_congr fun r hr => ?_
  cases hq : q r with
  | false => rfl
  | true => simp [h r hr hq]

theorem select_update {t : Table key} {f : ρ → ρ} {h : ∀ r, key (f r) = key r} {q : ρ → Bool}
    (hq : ∀ r, q (f r) = q r) : (t.update f h).select q = (t.select q).map f := by
  rw [select, update, select, List.filter_map]
  congr 1
  exact List.filter_congr fun r _ => hq r

section

variable [DecidableEq κ]

theorem rows_insert? {t t' : Table key} {rows : List ρ} (h : t.insert? rows = some t') :
    t'.rows = t.rows ++ rows := by
  unfold insert? at h
  split at h
  · cases h; rfl
  · cases h

/-- Inserting rows of `p` where there were none. -/
theorem select_insert? {t t' : Table key} {p : ρ → Bool} {rows : List ρ} (hnone : ∀ r ∈ t.rows, p r = false)
    (hp : ∀ r ∈ rows, p r = true) (h : t.insert? rows = some t') : t'.select p = rows := by
  have hold : t.rows.filter p = [] := List.filter_eq_nil_iff.mpr fun r hr => by simp [hnone r hr]
  rw [select, rows_insert? h, List.filter_append, hold, List.nil_append]
  exact List.filter_eq_self.mpr hp

/-- Deleting the rows of `p` and inserting others that meet `p`. -/
theorem select_replace {t t' : Table key} {p : ρ → Bool} {rows : List ρ} (hp : ∀ r ∈ rows, p r = true)
    (h : (t.delete p).insert? rows = some t') : t'.select p = rows := by
  have hsel := select_delete_self t p
  rw [select] at hsel ⊢
  rw [rows_insert? h, List.filter_append, hsel, List.nil_append]
  exact List.filter_eq_self.mpr hp

/-- A predicate that excludes `p` selects what it did. -/
theorem select_replace_ne {t t' : Table key} {p q : ρ → Bool} {rows : List ρ} (hp : ∀ r ∈ rows, p r = true)
    (hq : ∀ r, q r = true → p r = false) (h : (t.delete p).insert? rows = some t') : t'.select q = t.select q := by
  have hnone : rows.filter q = [] := List.filter_eq_nil_iff.mpr fun r hr hqr => by
    have := hq r hqr
    rw [hp r hr] at this; cases this
  have hsel : (t.delete p).select q = t.select q := select_delete fun r _ => hq r
  rw [select] at hsel ⊢
  rw [rows_insert? h, List.filter_append, hnone, List.append_nil, hsel]

/-- Rows already there can be deleted and inserted again. -/
theorem replace_self {t : Table key} {p : ρ → Bool} {rows : List ρ} (h : (t.select p).Perm rows) :
    ∃ t', (t.delete p).insert? rows = some t' ∧ t'.rows.Perm t.rows := by
  have hperm : ((t.delete p).rows ++ rows).Perm t.rows := by
    have hsplit := List.filter_append_perm p t.rows
    exact (List.perm_append_comm.trans (h.symm.append_right _)).trans hsplit
  have hnodup : (((t.delete p).rows ++ rows).map key).Nodup := (hperm.map key).nodup_iff.mpr t.nodup
  exact ⟨⟨_, hnodup⟩, dif_pos hnodup, hperm⟩

/-- Where the rows of `p` are those with the key of `row`, merging leaves `row` alone of them. -/
theorem select_merge {t : Table key} {p : ρ → Bool} {row : ρ} (hrow : p row = true)
    (hkey : ∀ r ∈ t.rows, p r = true → key r = key row) : (t.merge row).select p = [row] := by
  have hnone : (t.rows.filter fun r => key r ≠ key row).filter p = [] := by
    rw [List.filter_eq_nil_iff]
    intro r hr hp
    obtain ⟨hmem, hne⟩ := List.mem_filter.mp hr
    simp [hkey r hmem hp] at hne
  rw [select, merge, List.filter_append, hnone, List.nil_append]
  simp [hrow]

theorem select_merge_ne {t : Table key} {q : ρ → Bool} {row : ρ} (hrow : q row = false)
    (hkey : ∀ r ∈ t.rows, q r = true → key r ≠ key row) : (t.merge row).select q = t.select q := by
  rw [select, merge, select, List.filter_append]
  have hself : (t.rows.filter fun r => key r ≠ key row).filter q = t.rows.filter q := by
    rw [List.filter_filter]
    refine List.filter_congr fun r hr => ?_
    cases hq : q r with
    | false => rfl
    | true => simp [hkey r hr hq]
  rw [hself]
  simp [hrow]

theorem mem_merge {t : Table key} {row r : ρ} : r ∈ (t.merge row).rows ↔ r = row ∨ r ∈ t.rows ∧ key r ≠ key row := by
  simp [merge, or_comm]

/-- Merging a row that is there. -/
theorem mem_merge_of_mem {t : Table key} {row r : ρ} (h : row ∈ t.rows) : r ∈ (t.merge row).rows ↔ r ∈ t.rows := by
  rw [mem_merge]
  constructor
  · rintro (rfl | ⟨hr, -⟩)
    · exact h
    · exact hr
  · intro hr
    by_cases hk : key r = key row
    · exact .inl (List.inj_on_of_nodup_map t.nodup hr h hk)
    · exact .inr ⟨hr, hk⟩

end

end Table

/-! ## The first row of a predicate -/

section

variable {ρ κ : Type}

/-- A single row is found in every order. -/
theorem find?_perm {p : ρ → Bool} {rows rows' : List ρ} (h : rows.Perm rows') (hone : (rows.filter p).length ≤ 1) :
    rows.find? p = rows'.find? p := by
  have hp := h.filter p
  rw [← List.head?_filter, ← List.head?_filter]
  match hf : rows.filter p with
  | [] =>
    rw [hf] at hp
    rw [hp.nil_eq]
  | [r] =>
    rw [hf] at hp
    rw [List.singleton_perm.mp hp]
  | _ :: _ :: _ => rw [hf] at hone; simp at hone

/-- The same row found from both ends is the only one. -/
theorem length_filter_le_one_of_reverse {key : ρ → κ} {p : ρ → Bool} {rows : List ρ} (hn : (rows.map key).Nodup)
    (h : (rows.reverse.find? p).map key = (rows.find? p).map key) : (rows.filter p).length ≤ 1 := by
  have hnodup : ((rows.filter p).map key).Nodup := (List.filter_sublist.map key).nodup hn
  rw [← List.head?_filter, ← List.head?_filter, List.filter_reverse, List.head?_reverse] at h
  match hf : rows.filter p with
  | [] => simp
  | [_] => simp
  | a :: b :: rest =>
    -- the last row is one of the later ones, and has the key of the first
    rw [hf] at h hnodup
    have hlast : (b :: rest).getLast (by simp) ∈ b :: rest := List.getLast_mem _
    rw [List.getLast?_eq_some_getLast (by simp), List.getLast_cons (by simp)] at h
    have hk : key ((b :: rest).getLast (by simp)) = key a := by simpa using h
    have hout := (List.nodup_cons.mp hnodup).1
    exact absurd (hk ▸ List.mem_map_of_mem (f := key) hlast) hout

end

end MasResearch
