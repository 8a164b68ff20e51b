import Mathlib.Data.List.Forall2
import Mathlib.Logic.Relation

/-!
# Coroutines that may raise

`Exec σ ε α` is the meaning of a Python coroutine over the mutable state `σ`: it
returns an `α` or raises an `ε`, and what it changed before raising stays
changed. `attempt` is `try`/`except`, `zoom` runs a coroutine on a part of the
state, `forEach`, `collect` and `anyChanged` are the `for` loops of the source and
`whileChanged` its `while changed:` loop, given a number of rounds.

`Reports P R F x` is the rule set for coroutines that answer "did I change
anything?": from a state in `P` they return `True` after at least one `R`-step,
`False` having changed nothing, or raise after `R`-steps and one fault `F`.

* `mapM_ok`, `foldlM_ok`, `mapM_ok_iff`: a loop over a function that may raise.
* `outcome_anyChanged`, `Reports.orElse`: loops and sequences of such coroutines.
* `Reports.whileChanged`: when a measure drops along `R`, enough rounds reach a
  state on which the body reports nothing to do.
* `Maintains`: what a coroutine keeps, also when it raises.
* `Same`: two coroutines that do the same from every state in `P`.
* `Yields`: a coroutine that answers what a function without the state answers.
* `forEach_view`: a loop over distinct keys, each body touching its own key only.
-/
namespace MasResearch

open Relation

/-- What a coroutine of the model raises. `loops` is not a Python exception: it
is the outcome of a `while` loop that used up the rounds the model grants it. -/
inductive PyError where
  | keyError (msg : String)
  | indexError
  | valueError (msg : String)
  | validationError
  | external
  | loops
  deriving DecidableEq, Repr

/-! ## Loops that may raise -/

section

variable {ε α β : Type} {f : α → Except ε β}

/-- `[f(x) for x in xs]` when no `f(x)` raises. -/
theorem mapM_ok {g : α → β} : ∀ {xs : List α}, (∀ x ∈ xs, f x = .ok (g x)) → xs.mapM f = .ok (xs.map g)
  | [], _ => rfl
  | x :: xs, h => by
    rw [List.forall_mem_cons] at h
    rw [List.mapM_cons, h.1, mapM_ok h.2]
    rfl

theorem foldlM_ok {σ : Type} {f : σ → α → Except ε σ} {g : σ → α → σ} : ∀ {xs : List α} {s : σ},
    (∀ s, ∀ x ∈ xs, f s x = .ok (g s x)) → xs.foldlM f s = .ok (xs.foldl g s)
  | [], _, _ => rfl
  | x :: xs, s, h => by
    rw [List.foldlM_cons, h s x List.mem_cons_self, List.foldl_cons]
    exact foldlM_ok fun s y hy => h s y (List.mem_cons_of_mem _ hy)

theorem bind_ok_iff {x : Except ε α} {g : α → Except ε β} {b : β} :
    (x >>= g) = .ok b ↔ ∃ a, x = .ok a ∧ g a = .ok b := by
  cases x <;> simp [bind, Except.bind]

/-- In a loop that returned, each step returned. -/
theorem forall_ok_of_foldlM {σ : Type} {f : σ → α → Except ε σ} : ∀ {xs : List α} {s s' : σ},
    xs.foldlM f s = .ok s' → ∀ x ∈ xs, ∃ t t', f t x = .ok t'
  | [], _, _, _, _, hx => by cases hx
  | y :: xs, s, s', h, x, hx => by
    obtain ⟨t, hy, hrest⟩ := bind_ok_iff.mp h
    rcases List.mem_cons.mp hx with rfl | hx
    · exact ⟨s, t, hy⟩
    · exact forall_ok_of_foldlM hrest x hx

theorem mapM_ok_iff : ∀ {xs : List α} {ys : List β}, xs.mapM f = .ok ys ↔ List.Forall₂ (fun x y => f x = .ok y) xs ys
  | [], ys => by simp [pure, Except.pure, eq_comm]
  | x :: xs, ys => by
    simp only [List.mapM_cons, bind_ok_iff, mapM_ok_iff, List.forall₂_cons_left_iff, pure, Except.pure,
      Except.ok.injEq]
    constructor
    · rintro ⟨y, hy, rest, hrest, rfl⟩
      exact ⟨y, rest, hy, hrest, rfl⟩
    · rintro ⟨y, rest, hy, hrest, rfl⟩
      exact ⟨y, hy, rest, hrest, rfl⟩

theorem exists_mem_of_forall₂ {R : α → β → Prop} {xs : List α} {ys : List β} (h : List.Forall₂ R xs ys) {x : α}
    (hx : x ∈ xs) : ∃ y ∈ ys, R x y := by
  induction h with
  | nil => cases hx
  | cons hxy _ ih =>
    rcases List.mem_cons.mp hx with rfl | hx
    · exact ⟨_, List.mem_cons_self, hxy⟩
    · obtain ⟨y, hy, hr⟩ := ih hx
      exact ⟨y, List.mem_cons_of_mem _ hy, hr⟩

theorem exists_forall₂_iff {R : α → β → Prop} : ∀ {xs : List α},
    (∃ ys, List.Forall₂ R xs ys) ↔ ∀ x ∈ xs, ∃ y, R x y
  | [] => by simp
  | x :: xs => by
    rw [List.forall_mem_cons, ← exists_forall₂_iff]
    constructor
    · rintro ⟨_, hys⟩
      obtain ⟨y, ys, hy, hys, -⟩ := List.forall₂_cons_left_iff.mp hys
      exact ⟨⟨y, hy⟩, ys, hys⟩
    · rintro ⟨⟨y, hy⟩, ys, hys⟩
      exact ⟨y :: ys, .cons hy hys⟩

end

def Exec (σ ε α : Type) : Type := σ → Except ε α × σ

namespace Exec

variable {σ τ ε α β κ : Type}

def run (x : Exec σ ε α) (s : σ) : Except ε α × σ := x s

instance : Monad (Exec σ ε) where
  pure a := fun s => (.ok a, s)
  bind x f := fun s => match x s with
    | (.ok a, s') => f a s'
    | (.error e, s') => (.error e, s')

def get : Exec σ ε σ := fun s => (.ok s, s)

def modify (f : σ → σ) : Exec σ ε Unit := fun s => (.ok (), f s)

def raise (e : ε) : Exec σ ε α := fun s => (.error e, s)

/-- What returns or raises without looking at the state. -/
def lift (r : Except ε α) : Exec σ ε α := fun s => (r, s)

/-- What `x` raises is one of the things that may be raised here. -/
def mapError {ε' : Type} (f : ε → ε') (x : Exec σ ε α) : Exec σ ε' α := fun s => ((x s).1.mapError f, (x s).2)

/-- `try: x  except error: h(error)`. -/
def attempt (x : Exec σ ε α) (h : ε → Exec σ ε α) : Exec σ ε α := fun s => match x s with
  | (.ok a, s') => (.ok a, s')
  | (.error e, s') => h e s'

/-- `x` on the part of the state that `g` reads and `p` writes back. -/
def zoom (g : σ → τ) (p : σ → τ → σ) (x : Exec τ ε α) : Exec σ ε α := fun s =>
  ((x (g s)).1, p s (x (g s)).2)

/-- `for a in xs: f(a)`. -/
def forEach : List α → (α → Exec σ ε Unit) → Exec σ ε Unit
  | [], _ => pure ()
  | a :: xs, f => do f a; forEach xs f

/-- `bs = []`, `for a in xs: bs.append(f(a))`. -/
def collect : List α → (α → Exec σ ε β) → Exec σ ε (List β)
  | [], _ => pure []
  | a :: xs, f => do
    let b ← f a
    let bs ← collect xs f
    pure (b :: bs)

/-- `for a in xs: changed = f(a) or changed`. -/
def anyChanged : List α → (α → Exec σ ε Bool) → Exec σ ε Bool
  | [], _ => pure false
  | a :: xs, f => do
    let x ← f a
    let y ← anyChanged xs f
    pure (x || y)

/-- `changed = True; while changed: changed = body()`, raising `stuck` when the
rounds run out first. -/
def whileChanged (body : Exec σ ε Bool) (stuck : ε) : Nat → Exec σ ε Unit
  | 0 => raise stuck
  | n + 1 => do
    let changed ← body
    if changed then whileChanged body stuck n else pure ()

@[simp] theorem run_pure (a : α) (s : σ) : (pure a : Exec σ ε α).run s = (.ok a, s) := rfl

@[simp] theorem run_get (s : σ) : (get : Exec σ ε σ).run s = (.ok s, s) := rfl

@[simp] theorem run_modify (f : σ → σ) (s : σ) :
    (modify f : Exec σ ε Unit).run s = (.ok (), f s) := rfl

@[simp] theorem run_raise (e : ε) (s : σ) : (raise e : Exec σ ε α).run s = (.error e, s) := rfl

@[simp] theorem run_lift (r : Except ε α) (s : σ) : (lift r : Exec σ ε α).run s = (r, s) := rfl

theorem run_bind (x : Exec σ ε α) (f : α → Exec σ ε β) (s : σ) :
    (x >>= f).run s = match x.run s with
      | (.ok a, s') => (f a).run s'
      | (.error e, s') => (.error e, s') := rfl

theorem run_attempt (x : Exec σ ε α) (h : ε → Exec σ ε α) (s : σ) :
    (attempt x h).run s = match x.run s with
      | (.ok a, s') => (.ok a, s')
      | (.error e, s') => (h e).run s' := rfl

@[simp] theorem run_zoom (g : σ → τ) (p : σ → τ → σ) (x : Exec τ ε α) (s : σ) :
    (zoom g p x).run s = ((x.run (g s)).1, p s (x.run (g s)).2) := rfl

theorem run_bind_ok {x : Exec σ ε α} {f : α → Exec σ ε β} {s s' : σ} {a : α}
    (h : x.run s = (.ok a, s')) : (x >>= f).run s = (f a).run s' := by rw [run_bind, h]

theorem run_bind_error {x : Exec σ ε α} {f : α → Exec σ ε β} {s s' : σ} {e : ε}
    (h : x.run s = (.error e, s')) : (x >>= f).run s = (.error e, s') := by rw [run_bind, h]

/-- A sequence that returned ran its first part to the end. -/
theorem bind_ok {x : Exec σ ε α} {f : α → Exec σ ε β} {s t : σ} {b : β}
    (h : (x >>= f).run s = (.ok b, t)) :
    ∃ a s', x.run s = (.ok a, s') ∧ (f a).run s' = (.ok b, t) := by
  rw [run_bind] at h
  generalize x.run s = r at h
  obtain ⟨_ | a, s'⟩ := r
  · cases h
  · exact ⟨a, s', rfl, h⟩

/-- Rounds beyond the last one are not used. -/
theorem whileChanged_mono {body : Exec σ ε Bool} {stuck : ε} : ∀ {m n : Nat} {s s' : σ},
    (whileChanged body stuck m).run s = (.ok (), s') → m ≤ n → (whileChanged body stuck n).run s = (.ok (), s') := by
  intro m
  induction m with
  | zero => intro n s s' h _; cases h
  | succ m ih =>
    intro n s s' h hle
    obtain ⟨k, rfl⟩ := Nat.exists_eq_add_of_le' hle
    obtain ⟨b, t, hbody, hrest⟩ := bind_ok h
    rw [show k + (m + 1) = k + m + 1 from rfl, whileChanged, run_bind_ok hbody]
    cases b with
    | false => exact hrest
    | true => exact ih hrest (by omega)

/-! ## Coroutines that report whether they changed anything -/

section Reports

variable {P : σ → Prop} {R : σ → σ → Prop} {F : ε → σ → σ → Prop}

/-- What a coroutine that answers "changed?" did, by its outcome. -/
def Outcome (R : σ → σ → Prop) (F : ε → σ → σ → Prop) (s : σ) : Except ε Bool × σ → Prop
  | (.ok true, s') => TransGen R s s'
  | (.ok false, s') => s' = s
  | (.error e, s') => ∃ m, ReflTransGen R s m ∧ F e m s'

def Reports (P : σ → Prop) (R : σ → σ → Prop) (F : ε → σ → σ → Prop) (x : Exec σ ε Bool) : Prop :=
  ∀ s, P s → Outcome R F s (x.run s)

theorem stable_star (hP : ∀ s s', P s → R s s' → P s') {s s' : σ} (h : ReflTransGen R s s') :
    P s → P s' := by
  induction h with
  | refl => exact id
  | tail _ hs ih => exact fun hp => hP _ _ (ih hp) hs

theorem Outcome.star {s s' : σ} {b : Bool} (h : Outcome R F s (.ok b, s')) : ReflTransGen R s s' := by
  cases b with
  | false => obtain rfl : s' = s := h; exact .refl
  | true => exact TransGen.to_reflTransGen h

theorem Outcome.after {s m s' : σ} {b c : Bool} (h : Outcome R F s (.ok b, m))
    (h' : Outcome R F m (.ok c, s')) : Outcome R F s (.ok (b || c), s') := by
  cases b <;> cases c <;> simp only [Outcome, Bool.or_false, Bool.or_true] at h h' ⊢
  · rw [h', h]
  · rw [h] at h'; exact h'
  · rw [h']; exact h
  · exact h.trans h'

theorem Outcome.raised {s m s' : σ} {e : ε} (h : ReflTransGen R s m)
    (h' : Outcome R F m (.error e, s')) : Outcome R F s (.error e, s') := by
  obtain ⟨k, hk, hf⟩ := h'
  exact ⟨k, h.trans hk, hf⟩

theorem Reports.bind_get {f : σ → Exec σ ε Bool} (h : ∀ s, P s → Outcome R F s ((f s).run s)) :
    Reports P R F (get >>= f) := fun s hs => h s hs

theorem Reports.orElse (hP : ∀ s s', P s → R s s' → P s') {x y : Exec σ ε Bool}
    (hx : Reports P R F x) (hy : Reports P R F y) :
    Reports P R F (do let a ← x; let b ← y; pure (a || b)) := by
  intro s hs
  have h1 := hx s hs
  rw [run_bind]
  generalize x.run s = r at h1 ⊢
  obtain ⟨e | a, s1⟩ := r
  · exact h1
  · have h2 := hy s1 (stable_star hP h1.star hs)
    simp only [run_bind]
    generalize y.run s1 = r at h2 ⊢
    obtain ⟨e | b, s2⟩ := r
    · exact Outcome.raised h1.star h2
    · exact h1.after h2

/-- The body for `a` leaves the loop condition `K` of the later item `b` alone. -/
def Keeps (P : σ → Prop) (K : α → σ → Prop) (f : α → Exec σ ε Bool) (a b : α) : Prop :=
  ∀ s s' x, P s → K a s → K b s → (f a).run s = (.ok x, s') → K b s'

/-- A loop over items that all meet `K`, no body spoiling `K` for a later item. -/
theorem outcome_anyChanged (hP : ∀ s s', P s → R s s' → P s') {K : α → σ → Prop}
    {f : α → Exec σ ε Bool} (h : ∀ a s, P s → K a s → Outcome R F s ((f a).run s)) :
    ∀ {xs : List α}, xs.Pairwise (Keeps P K f) → ∀ s, P s → (∀ a ∈ xs, K a s) →
      Outcome R F s ((anyChanged xs f).run s)
  | [], _, _, _, _ => rfl
  | a :: xs, hk, s, hs, ha => by
    rw [List.pairwise_cons] at hk
    have h1 := h a s hs (ha a List.mem_cons_self)
    simp only [anyChanged, run_bind]
    generalize hr : (f a).run s = r at h1
    obtain ⟨e | x, s1⟩ := r
    · exact h1
    · have hs1 := stable_star hP h1.star hs
      have h2 := outcome_anyChanged hP h hk.2 s1 hs1
        (fun b hb => hk.1 b hb s s1 x hs (ha a List.mem_cons_self) (ha b (List.mem_cons_of_mem _ hb)) hr)
      dsimp only
      generalize (anyChanged xs f).run s1 = r at h2 ⊢
      obtain ⟨e | y, s2⟩ := r
      · exact Outcome.raised h1.star h2
      · exact h1.after h2

/-- A loop that reports "nothing changed" found nothing to do in any round. -/
theorem quiet_anyChanged {K : α → σ → Prop} {f : α → Exec σ ε Bool}
    (h : ∀ a s, P s → K a s → Outcome R F s ((f a).run s)) :
    ∀ {xs : List α} {s s' : σ}, P s → (∀ a ∈ xs, K a s) →
      (anyChanged xs f).run s = (.ok false, s') → ∀ a ∈ xs, (f a).run s = (.ok false, s)
  | [], _, _, _, _, _ => fun _ h => by cases h
  | a :: _, s, s', hs, ha, hr => by
    obtain ⟨x, s1, h1, hr⟩ := bind_ok hr
    obtain ⟨y, s2, h2, hr⟩ := bind_ok hr
    obtain ⟨rfl, rfl⟩ : x = false ∧ y = false := by
      have : (x || y) = false := by simpa using congrArg Prod.fst hr
      simpa using this
    have e : s1 = s := by
      have := h a s hs (ha a List.mem_cons_self)
      rw [h1] at this; exact this
    subst e
    intro b hb
    rcases List.mem_cons.mp hb with rfl | hb
    · exact h1
    · exact quiet_anyChanged h hs (fun b hb => ha b (List.mem_cons_of_mem _ hb)) h2 b hb

theorem quiet_orElse {x y : Exec σ ε Bool} (hx : Reports P R F x) {s s' : σ}
    (hs : P s) (hr : (do let a ← x; let b ← y; pure (a || b) : Exec σ ε Bool).run s = (.ok false, s')) :
    x.run s = (.ok false, s) ∧ y.run s = (.ok false, s') := by
  obtain ⟨a, s1, h1, hr⟩ := bind_ok hr
  obtain ⟨b, s2, h2, hr⟩ := bind_ok hr
  have hb : (a || b) = false := by simpa using congrArg Prod.fst hr
  have e2 : s2 = s' := by simpa using congrArg Prod.snd hr
  obtain ⟨rfl, rfl⟩ : a = false ∧ b = false := by simpa using hb
  have e : s1 = s := by
    have := hx s hs
    rw [h1] at this; exact this
  subst e
  exact ⟨h1, by rw [h2, e2]⟩

/-- A round that changed something lowered the measure. -/
theorem Reports.drop (hP : ∀ s s', P s → R s s' → P s') (μ : σ → Nat)
    (hμ : ∀ s s', P s → R s s' → μ s' < μ s) {body : Exec σ ε Bool} (hb : Reports P R F body) {s s₁ : σ}
    (hs : P s) (hr : body.run s = (.ok true, s₁)) : P s₁ ∧ μ s₁ < μ s := by
  have h1 : TransGen R s s₁ := by simpa only [hr, Outcome] using hb s hs
  clear hr
  induction h1 with
  | single h => exact ⟨hP _ _ hs h, hμ _ _ hs h⟩
  | tail _ h ih => exact ⟨hP _ _ ih.1 h, Nat.lt_trans (hμ _ _ ih.1 h) ih.2⟩

/-- With a measure `μ` that drops along `R`, more rounds than `μ s` let the loop
leave through its test, in a state on which the body reports nothing to do;
otherwise the body raised. -/
theorem Reports.whileChanged (hP : ∀ s s', P s → R s s' → P s') (μ : σ → Nat)
    (hμ : ∀ s s', P s → R s s' → μ s' < μ s) {body : Exec σ ε Bool} (hb : Reports P R F body)
    (stuck : ε) : ∀ (n : Nat) (s : σ), P s → μ s < n →
      (∃ s', (whileChanged body stuck n).run s = (.ok (), s') ∧ ReflTransGen R s s' ∧
        body.run s' = (.ok false, s')) ∨
      (∃ e s' m, (whileChanged body stuck n).run s = (.error e, s') ∧ ReflTransGen R s m ∧ F e m s') := by
  intro n
  induction n with
  | zero => intro s _ h; exact absurd h (Nat.not_lt_zero _)
  | succ n ih =>
    intro s hs hn
    have h1 := hb s hs
    simp only [Exec.whileChanged, run_bind]
    generalize hr : body.run s = r at h1
    obtain ⟨e | a, s1⟩ := r
    · obtain ⟨m, hm, hf⟩ := h1
      exact .inr ⟨e, s1, m, rfl, hm, hf⟩
    · cases a with
      | false =>
        obtain rfl : s1 = s := h1
        exact .inl ⟨s1, rfl, .refl, hr⟩
      | true =>
        have hlt : μ s1 < μ s := (hb.drop hP μ hμ hs hr).2
        have hstar : ReflTransGen R s s1 := Outcome.star (F := F) (b := true) h1
        rcases ih s1 (stable_star hP hstar hs) (by omega) with ⟨s', h2, h3, h4⟩ | ⟨e, s', m, h2, h3, h4⟩
        · exact .inl ⟨s', h2, hstar.trans h3, h4⟩
        · exact .inr ⟨e, s', m, h2, hstar.trans h3, h4⟩

/-- Once a round has ended in `Q`, which `R` keeps and in which nothing faults,
the loop returns in `Q`. -/
theorem Reports.whileChanged_of_round (hP : ∀ s s', P s → R s s' → P s') (μ : σ → Nat)
    (hμ : ∀ s s', P s → R s s' → μ s' < μ s) {body : Exec σ ε Bool} (hb : Reports P R F body)
    (stuck : ε) {Q : σ → Prop} (hQ : ∀ s s', P s → Q s → R s s' → Q s')
    (hF : ∀ e s s', P s → Q s → ¬ F e s s') {n : Nat} {s s₁ : σ} {b : Bool} (hs : P s) (hn : μ s < n)
    (hr : body.run s = (.ok b, s₁)) (hq : Q s₁) :
    ∃ s', (Exec.whileChanged body stuck n).run s = (.ok (), s') ∧ Q s' := by
  have hstar : ∀ {t t' : σ}, ReflTransGen R t t' → P t ∧ Q t → P t' ∧ Q t' := fun h =>
    stable_star (P := fun t => P t ∧ Q t) (fun _ _ ht h => ⟨hP _ _ ht.1 h, hQ _ _ ht.1 ht.2 h⟩) h
  obtain ⟨k, rfl⟩ := Nat.exists_eq_add_one_of_ne_zero (Nat.ne_of_gt (Nat.zero_lt_of_lt hn))
  have h1 := hb s hs
  rw [hr] at h1
  rw [Exec.whileChanged, run_bind_ok hr]
  cases b with
  | false => exact ⟨s₁, rfl, hq⟩
  | true =>
    obtain ⟨hs₁, hlt⟩ := hb.drop hP μ hμ hs hr
    rcases hb.whileChanged hP μ hμ stuck k s₁ hs₁ (by omega) with ⟨s', h2, h3, -⟩ | ⟨e, s', m, -, h3, h4⟩
    · exact ⟨s', h2, (hstar h3 ⟨hs₁, hq⟩).2⟩
    · exact absurd h4 (hF _ _ _ (hstar h3 ⟨hs₁, hq⟩).1 (hstar h3 ⟨hs₁, hq⟩).2)

end Reports

/-! ## Invariants of coroutines, whatever they return or raise -/

section Maintains

variable {P : σ → Prop}

/-- `x` keeps `P`, also when it raises. -/
def Maintains (P : σ → Prop) (x : Exec σ ε α) : Prop := ∀ s, P s → P (x.run s).2

theorem Maintains.pure (a : α) : Maintains P (pure a : Exec σ ε α) := fun _ h => h

theorem Maintains.bind {x : Exec σ ε α} {f : α → Exec σ ε β} (hx : Maintains P x)
    (hf : ∀ a, Maintains P (f a)) : Maintains P (x >>= f) := by
  intro s h
  have h1 := hx s h
  rw [run_bind]
  generalize x.run s = r at h1
  obtain ⟨_ | a, s'⟩ := r
  · exact h1
  · exact hf a s' h1

theorem Maintains.attempt {x : Exec σ ε α} {h : ε → Exec σ ε α} (hx : Maintains P x)
    (hh : ∀ e, Maintains P (h e)) : Maintains P (attempt x h) := by
  intro s hs
  have h1 := hx s hs
  rw [run_attempt]
  generalize x.run s = r at h1
  obtain ⟨e | _, s'⟩ := r
  · exact hh e s' h1
  · exact h1

theorem Maintains.get_bind {f : σ → Exec σ ε α} (hf : ∀ s, P s → Maintains P (f s)) :
    Maintains P (get >>= f) := fun s h => hf s h s h

theorem Maintains.forEach {f : α → Exec σ ε Unit} :
    ∀ {xs : List α}, (∀ a ∈ xs, Maintains P (f a)) → Maintains P (Exec.forEach xs f)
  | [], _ => Maintains.pure ()
  | _ :: _, h => (h _ List.mem_cons_self).bind fun _ =>
      Maintains.forEach fun b hb => h b (List.mem_cons_of_mem _ hb)

theorem Maintains.collect {f : α → Exec σ ε β} :
    ∀ {xs : List α}, (∀ a ∈ xs, Maintains P (f a)) → Maintains P (Exec.collect xs f)
  | [], _ => Maintains.pure []
  | _ :: _, h => (h _ List.mem_cons_self).bind fun _ =>
      (Maintains.collect fun b hb => h b (List.mem_cons_of_mem _ hb)).bind fun _ => Maintains.pure _

theorem Maintains.anyChanged {f : α → Exec σ ε Bool} :
    ∀ {xs : List α}, (∀ a ∈ xs, Maintains P (f a)) → Maintains P (Exec.anyChanged xs f)
  | [], _ => Maintains.pure false
  | _ :: _, h => (h _ List.mem_cons_self).bind fun _ =>
      (Maintains.anyChanged fun b hb => h b (List.mem_cons_of_mem _ hb)).bind fun _ => Maintains.pure _

end Maintains

/-! ## Two coroutines that do the same -/

section Same

variable {P : σ → Prop}

/-- From a state in `P`, `x` and `y` do the same, and what they do keeps `P`. -/
def Same (P : σ → Prop) (x y : Exec σ ε α) : Prop := ∀ s, P s → x.run s = y.run s ∧ P (x.run s).2

theorem Maintains.same {x : Exec σ ε α} (h : Maintains P x) : Same P x x := fun s hs => ⟨rfl, h s hs⟩

theorem Same.bind {x y : Exec σ ε α} {f g : α → Exec σ ε β} (hx : Same P x y) (hf : ∀ a, Same P (f a) (g a)) :
    Same P (x >>= f) (y >>= g) := by
  intro s hs
  obtain ⟨he, hp⟩ := hx s hs
  rw [run_bind, run_bind, ← he]
  generalize x.run s = r at hp
  obtain ⟨_ | a, s'⟩ := r
  · exact ⟨rfl, hp⟩
  · exact hf a s' hp

theorem Same.get_bind {f g : σ → Exec σ ε α} (hf : ∀ s, P s → Same P (f s) (g s)) :
    Same P (get >>= f) (get >>= g) := fun s hs => hf s hs s hs

theorem Same.attempt {x y : Exec σ ε α} {h k : ε → Exec σ ε α} (hx : Same P x y) (hh : ∀ e, Same P (h e) (k e)) :
    Same P (attempt x h) (attempt y k) := by
  intro s hs
  obtain ⟨he, hp⟩ := hx s hs
  rw [run_attempt, run_attempt, ← he]
  generalize x.run s = r at hp
  obtain ⟨e | _, s'⟩ := r
  · exact hh e s' hp
  · exact ⟨rfl, hp⟩

theorem Same.zoom {Q : τ → Prop} {g : σ → τ} {p : σ → τ → σ} {x y : Exec τ ε α} (hx : Same Q x y)
    (hg : ∀ s, P s → Q (g s)) (hp : ∀ s t, Q t → P (p s t)) : Same P (zoom g p x) (zoom g p y) := by
  intro s hs
  obtain ⟨he, hq⟩ := hx (g s) (hg s hs)
  rw [run_zoom, run_zoom, ← he]
  exact ⟨rfl, hp s _ hq⟩

theorem Same.forEach {f g : α → Exec σ ε Unit} (h : ∀ a, Same P (f a) (g a)) :
    ∀ xs : List α, Same P (Exec.forEach xs f) (Exec.forEach xs g)
  | [] => (Maintains.pure ()).same
  | a :: xs => (h a).bind fun _ => Same.forEach h xs

theorem Same.anyChanged {f g : α → Exec σ ε Bool} (h : ∀ a, Same P (f a) (g a)) :
    ∀ xs : List α, Same P (Exec.anyChanged xs f) (Exec.anyChanged xs g)
  | [] => (Maintains.pure false).same
  | a :: xs => (h a).bind fun _ => (Same.anyChanged h xs).bind fun _ => (Maintains.pure _).same

theorem Same.whileChanged {x y : Exec σ ε Bool} (h : Same P x y) (stuck : ε) :
    ∀ n, Same P (Exec.whileChanged x stuck n) (Exec.whileChanged y stuck n)
  | 0 => fun _ hs => ⟨rfl, hs⟩
  | n + 1 => h.bind fun changed => by
    cases changed with
    | true => exact Same.whileChanged h stuck n
    | false => exact (Maintains.pure ()).same

end Same

/-! ## A coroutine whose answer does not depend on the state -/

section Yields

variable {P : σ → Prop}

/-- From a state in `P`, `x` returns or raises `r`, and ends in `P`. -/
def Yields (P : σ → Prop) (x : Exec σ ε α) (r : Except ε α) : Prop := ∀ s, P s → (x.run s).1 = r ∧ P (x.run s).2

theorem Yields.lift (r : Except ε α) : Yields P (lift r) r := fun _ hs => ⟨rfl, hs⟩

theorem Yields.pure (a : α) : Yields P (pure a : Exec σ ε α) (.ok a) := fun _ hs => ⟨rfl, hs⟩

theorem Yields.bind {x : Exec σ ε α} {r : Except ε α} {f : α → Exec σ ε β} {g : α → Except ε β} (hx : Yields P x r)
    (hf : ∀ a, Yields P (f a) (g a)) : Yields P (x >>= f) (r >>= g) := by
  intro s hs
  obtain ⟨rfl, hp⟩ := hx s hs
  rw [run_bind]
  generalize x.run s = y at hp
  obtain ⟨_ | a, s'⟩ := y
  · exact ⟨rfl, hp⟩
  · exact hf a s' hp

theorem Yields.raise (e : ε) : Yields P (raise e : Exec σ ε α) (.error e) := fun _ hs => ⟨rfl, hs⟩

theorem Yields.collect {f : α → Exec σ ε β} {g : α → Except ε β} : ∀ {xs : List α}, (∀ a ∈ xs, Yields P (f a) (g a)) →
    Yields P (Exec.collect xs f) (xs.mapM g)
  | [], _ => Yields.pure []
  | a :: xs, h => by
    rw [List.forall_mem_cons] at h
    rw [List.mapM_cons]
    exact h.1.bind fun b => (Yields.collect h.2).bind fun bs => .pure _

theorem Yields.foldlM {f : β → α → Exec σ ε β} {g : β → α → Except ε β} (h : ∀ b a, Yields P (f b a) (g b a)) :
    ∀ (xs : List α) (b : β), Yields P (xs.foldlM f b) (xs.foldlM g b)
  | [], b => Yields.pure b
  | a :: xs, b => by
    rw [List.foldlM_cons, List.foldlM_cons]
    exact (h b a).bind fun b' => Yields.foldlM h xs b'

end Yields

/-! ## Loops over keys, each body touching its own key -/

/-- A loop whose bodies never raise and leave the view of every other key alone:
each key's view changes exactly as its own body changes it. -/
theorem forEach_view {V : Type} (view : κ → σ → V) (P : σ → Prop) (Own : κ → V → V → Prop)
    {f : κ → Exec σ ε Unit} :
    ∀ (ks : List κ), ks.Nodup →
      (∀ k ∈ ks, ∀ s, P s → ∃ s', (f k).run s = (.ok (), s') ∧ P s' ∧
        Own k (view k s) (view k s') ∧ ∀ k', k' ≠ k → view k' s' = view k' s) →
      ∀ s, P s → ∃ s', (forEach ks f).run s = (.ok (), s') ∧ P s' ∧
        (∀ k ∈ ks, Own k (view k s) (view k s')) ∧ ∀ k, k ∉ ks → view k s' = view k s
  | [], _, _, s, hs => ⟨s, rfl, hs, by simp, by simp⟩
  | k :: ks, hnd, h, s, hs => by
    rw [List.nodup_cons] at hnd
    obtain ⟨s1, h1, hs1, hown, hframe⟩ := h k List.mem_cons_self s hs
    obtain ⟨s2, h2, hs2, hown2, hframe2⟩ :=
      forEach_view view P Own ks hnd.2 (fun k' hk' => h k' (List.mem_cons_of_mem _ hk')) s1 hs1
    refine ⟨s2, by rw [forEach, run_bind_ok h1, h2], hs2, ?_, ?_⟩
    · intro k' hk'
      rcases List.mem_cons.mp hk' with rfl | hk'
      · rw [hframe2 k' hnd.1]; exact hown
      · have hne : k' ≠ k := fun e => hnd.1 (e ▸ hk')
        have := hown2 k' hk'
        rwa [hframe k' hne] at this
    · intro k' hk'
      rw [List.mem_cons, not_or] at hk'
      rw [hframe2 k' hk'.2, hframe k' hk'.1]

end Exec

end MasResearch
