import Mathlib.Logic.Relation

/-!
# Labelled transition systems

States `S`, labels `L`, a predicate for the initial states and a labelled step
relation. `Run` is a finite run with its labels, `Reachable` the states some run
from an initial state ends in. An `Inductive` predicate holds initially and is
kept by every step; `Inductive.reachable` is the one induction over runs that
every safety result of the development goes through.

`guarded` builds a deterministic system from a next-state function and a guard
on the labels: the guard says which environment behaviour a result assumes.
-/
namespace MasResearch

structure LTS (S L : Type) where
  init : S → Prop
  step : S → L → S → Prop

namespace LTS

variable {S L : Type}

inductive Run (M : LTS S L) : S → List L → S → Prop
  | nil (s : S) : Run M s [] s
  | cons {s t u : S} {l : L} {ls : List L} : M.step s l t → Run M t ls u → Run M s (l :: ls) u

def Reachable (M : LTS S L) (s : S) : Prop := ∃ s₀ ls, M.init s₀ ∧ M.Run s₀ ls s

/-- `P` holds initially and is kept by every step. -/
structure Inductive (M : LTS S L) (P : S → Prop) : Prop where
  init : ∀ s, M.init s → P s
  step : ∀ s l s', P s → M.step s l s' → P s'

theorem Inductive.run {M : LTS S L} {P : S → Prop} (h : M.Inductive P) {s s' : S} {ls : List L}
    (hr : M.Run s ls s') : P s → P s' := by
  induction hr with
  | nil => exact id
  | cons hs _ ih => exact fun hp => ih (h.step _ _ _ hp hs)

theorem Inductive.reachable {M : LTS S L} {P : S → Prop} (h : M.Inductive P) (s : S)
    (hr : M.Reachable s) : P s := by
  obtain ⟨s₀, ls, h0, hrun⟩ := hr
  exact h.run hrun (h.init _ h0)

theorem Run.snoc {M : LTS S L} {s t u : S} {ls : List L} {l : L} (hr : M.Run s ls t)
    (hs : M.step t l u) : M.Run s (ls ++ [l]) u := by
  induction hr with
  | nil => exact .cons hs (.nil _)
  | cons h _ ih => exact .cons h (ih hs)

theorem Reachable.step {M : LTS S L} {s s' : S} {l : L} (h : M.Reachable s) (hs : M.step s l s') :
    M.Reachable s' := by
  obtain ⟨s₀, ls, h0, hr⟩ := h
  exact ⟨s₀, ls ++ [l], h0, hr.snoc hs⟩

/-- The system that starts in `init` and moves by `next` on the labels `guard` admits. -/
def guarded (init : S → Prop) (guard : S → L → Prop) (next : S → L → S) : LTS S L where
  init := init
  step s l s' := guard s l ∧ s' = next s l

/-- Every label of the list is admitted when it is taken. -/
def Admits (guard : S → L → Prop) (next : S → L → S) : S → List L → Prop
  | _, [] => True
  | s, l :: ls => guard s l ∧ Admits guard next (next s l) ls

/-- A guard that reads the label alone. -/
theorem admits_of_forall {guard : L → Prop} {next : S → L → S} :
    ∀ {ls : List L} (s : S), (∀ l ∈ ls, guard l) → Admits (fun _ => guard) next s ls
  | [], _, _ => trivial
  | l :: _, _, h => ⟨h l List.mem_cons_self, admits_of_forall _ fun l' hm => h l' (List.mem_cons_of_mem l hm)⟩

theorem run_foldl {init : S → Prop} {guard : S → L → Prop} {next : S → L → S} :
    ∀ {ls : List L} {s : S}, Admits guard next s ls →
      (guarded init guard next).Run s ls (ls.foldl next s)
  | [], s, _ => .nil s
  | _ :: _, _, h => .cons ⟨h.1, rfl⟩ (run_foldl h.2)

theorem reachable_foldl {init : S → Prop} {guard : S → L → Prop} {next : S → L → S} {s : S}
    (h0 : init s) {ls : List L} (h : Admits guard next s ls) :
    (guarded init guard next).Reachable (ls.foldl next s) :=
  ⟨s, ls, h0, run_foldl h⟩

end LTS

end MasResearch
