import Mathlib.Data.List.Infix
import Mathlib.Logic.Function.Basic
import MasResearch.Core.Exec

/-!
# Interleaved changes to a store

A store gives each place what is there, if anything is. A coroutine over a `Storage` can change
places but not look at them, so that it can run on a store or only keep a journal of its changes.

* `Replays`: on the store it does what the journal says, whatever is there.
* `applyAll_own`: in any interleaving, a place that only one party changes is as that party alone
  leaves it.
-/
namespace MasResearch

/-- What is done to one place. -/
structure Change (κ ν : Type) where
  place : κ
  change : Option ν → Option ν

/-- What of an interleaving is by one party. -/
def own {ι α : Type} [DecidableEq ι] (i : ι) (trace : List (ι × α)) : List α :=
  (trace.filter fun x => x.1 = i).map Prod.snd

theorem own_append {ι α : Type} [DecidableEq ι] (i : ι) (xs ys : List (ι × α)) :
    own i (xs ++ ys) = own i xs ++ own i ys := by
  rw [own, List.filter_append, List.map_append]
  rfl

theorem own_tagged {ι α : Type} [DecidableEq ι] (i j : ι) (xs : List α) :
    own i (xs.map (Prod.mk j)) = if j = i then xs else [] := by
  rw [own, List.filter_map, List.map_map]
  split
  · simp [Function.comp_def, *]
  · simp [Function.comp_def, *]

theorem own_snoc {ι α : Type} [DecidableEq ι] (i j : ι) (xs : List (ι × α)) (a : α) :
    own i (xs ++ [(j, a)]) = if j = i then own i xs ++ [a] else own i xs := by
  have hone : own i [(j, a)] = if j = i then [a] else [] := own_tagged i j [a]
  rw [own_append, hone]
  split
  · rfl
  · rw [List.append_nil]

section

variable {ι κ ν : Type} [DecidableEq ι] [DecidableEq κ]

def Change.apply (s : κ → Option ν) (c : Change κ ν) : κ → Option ν :=
  Function.update s c.place (c.change (s c.place))

def applyAll (s : κ → Option ν) (changes : List (Change κ ν)) : κ → Option ν := changes.foldl Change.apply s

theorem applyAll_append (s : κ → Option ν) (changes more : List (Change κ ν)) :
    applyAll s (changes ++ more) = applyAll (applyAll s changes) more := List.foldl_append

/-- Only what is done to a place matters there. -/
theorem applyAll_at (p : κ) : ∀ (changes : List (Change κ ν)) (s : κ → Option ν),
    applyAll s changes p = (changes.filter fun c => c.place = p).foldl (fun v c => c.change v) (s p)
  | [], _ => rfl
  | c :: changes, s => by
    have ih := applyAll_at p changes (c.apply s)
    rw [applyAll, List.foldl_cons] at *
    rw [ih, List.filter_cons]
    by_cases h : c.place = p
    · rw [if_pos (decide_eq_true h), List.foldl_cons, Change.apply, h, Function.update_self]
    · rw [if_neg (by simpa using h), Change.apply, Function.update_of_ne fun he => h he.symm]

/-- **Interleaving.** -/
theorem applyAll_own {i : ι} {p : κ} {trace : List (ι × Change κ ν)} (h : ∀ x ∈ trace, x.2.place = p → x.1 = i)
    (s : κ → Option ν) : applyAll s (trace.map Prod.snd) p = applyAll s (own i trace) p := by
  have hfilter : (trace.map Prod.snd).filter (fun c => c.place = p) = (own i trace).filter fun c => c.place = p := by
    rw [own, List.filter_map, List.filter_map, List.filter_filter]
    refine congrArg _ (List.filter_congr fun x hx => ?_)
    by_cases hp : x.2.place = p
    · simp [hp, h x hx hp]
    · simp [hp]
  rw [applyAll_at, applyAll_at, hfilter]

end

/-! ## Coroutines -/

/-- A state that changes are made to. -/
class Storage (σ : Type) (κ ν : outParam Type) where
  change : Change κ ν → σ → σ

instance {κ ν : Type} [DecidableEq κ] : Storage (κ → Option ν) κ ν := ⟨fun c s => c.apply s⟩

abbrev Journal (κ ν : Type) : Type := List (Change κ ν)

instance {κ ν : Type} : Storage (Journal κ ν) κ ν := ⟨fun c log => log ++ [c]⟩

namespace Exec

variable {σ κ ν ε α β : Type}

def change [Storage σ κ ν] (place : κ) (f : Option ν → Option ν) : Exec σ ε Unit := modify (Storage.change ⟨place, f⟩)

variable [DecidableEq κ] {S : κ → Prop}

theorem run_change (place : κ) (f : Option ν → Option ν) (s : κ → Option ν) :
    (change place f : Exec (κ → Option ν) ε Unit).run s = (.ok (), Function.update s place (f (s place))) := rfl

/-- `x` keeps a journal of what `y` does to the store, all of it in `S`. -/
def Replays (S : κ → Prop) (x : Exec (Journal κ ν) ε α) (y : Exec (κ → Option ν) ε α) : Prop :=
  ∃ r changes, (∀ c ∈ changes, S c.place) ∧ (∀ log, x.run log = (r, log ++ changes)) ∧
    ∀ s, y.run s = (r, applyAll s changes)

theorem Replays.lift (r : Except ε α) : Replays (ν := ν) S (lift r) (lift r) :=
  ⟨r, [], List.forall_mem_nil _, fun log => by rw [List.append_nil]; rfl, fun _ => rfl⟩

theorem Replays.pure (a : α) : Replays (ε := ε) (ν := ν) S (pure a) (pure a) := Replays.lift (.ok a)

theorem Replays.raise (e : ε) : Replays (α := α) (ν := ν) S (raise e) (raise e) := Replays.lift (.error e)

theorem Replays.change {place : κ} (h : S place) (f : Option ν → Option ν) :
    Replays (ε := ε) S (change place f) (change place f) :=
  ⟨.ok (), [⟨place, f⟩], by simpa using h, fun _ => rfl, fun _ => rfl⟩

theorem Replays.bind {x : Exec (Journal κ ν) ε α} {y : Exec (κ → Option ν) ε α} {f : α → Exec (Journal κ ν) ε β}
    {g : α → Exec (κ → Option ν) ε β} (h : Replays S x y) (hf : ∀ a, Replays S (f a) (g a)) :
    Replays S (x >>= f) (y >>= g) := by
  obtain ⟨r, changes, hin, hx, hy⟩ := h
  cases r with
  | error e =>
    exact ⟨.error e, changes, hin, fun log => run_bind_error (hx log), fun s => run_bind_error (hy s)⟩
  | ok a =>
    obtain ⟨r', more, hin', hx', hy'⟩ := hf a
    refine ⟨r', changes ++ more, fun c hc => ?_, fun log => ?_, fun s => ?_⟩
    · exact (List.mem_append.mp hc).elim (hin c) (hin' c)
    · rw [run_bind_ok (hx log), hx', List.append_assoc]
    · rw [run_bind_ok (hy s), hy', applyAll_append]

theorem Replays.lift_bind {r : Except ε α} {f : α → Exec (Journal κ ν) ε β} {g : α → Exec (κ → Option ν) ε β}
    (hf : ∀ a, r = .ok a → Replays S (f a) (g a)) : Replays S (Exec.lift r >>= f) (Exec.lift r >>= g) := by
  cases r with
  | error e => exact Replays.raise e
  | ok a => exact hf a rfl

/-- What is returned or raised does not depend on the store. -/
theorem Replays.yields {x : Exec (Journal κ ν) ε α} {y : Exec (κ → Option ν) ε α} (h : Replays S x y)
    (s : κ → Option ν) : Yields (fun _ => True) y (y.run s).1 := by
  obtain ⟨r, changes, -, -, hy⟩ := h
  exact fun s' _ => ⟨by rw [hy, hy], trivial⟩

theorem Replays.collect {f : α → Exec (Journal κ ν) ε β} {g : α → Exec (κ → Option ν) ε β}
    (h : ∀ a, Replays S (f a) (g a)) : ∀ xs : List α, Replays S (Exec.collect xs f) (Exec.collect xs g)
  | [] => Replays.pure []
  | a :: xs => (h a).bind fun _ => (Replays.collect h xs).bind fun _ => Replays.pure _

end Exec

end MasResearch
