import MasResearch.Core.Exec

/-!
# Coroutines that talk to a service

The state of such a coroutine holds a transcript: what it sent and what came back, the oldest
first. `Records view I x s P E` says what `x` adds to it, `P` when it returns and `E` when it
raises, and that the state ends in `I`. `Logs x log P E` says it of a coroutine whose state is the
transcript alone.

* `Records.bind`, `records_collect`, `Logs.bind`, `logs_foldlM`: the rules for sequences and loops.
* `Logs.mapError`: the rule for a part whose errors are some of those of the whole.
* `logs_call`: one exchange with a service, which may raise and may answer as it likes.
-/
namespace MasResearch

/-- A question to a service and what came of it. -/
structure Exchange (π ρ ε : Type) where
  prompt : π
  answer : Except ε ρ

/-- The answer to a question may depend on everything before it. -/
abbrev Service (π ρ ε : Type) : Type := List (Exchange π ρ ε) → π → Except ε ρ

namespace Exec

variable {κ ε α β π ρ : Type}

/-- From `s` on, `x` adds to what `view` shows of the state: `P` when it returns, `E` when it
raises. Either way it ends in `I`. -/
def Records {σ : Type} (view : σ → List κ) (I : σ → Prop) (x : Exec σ ε α) (s : σ) (P : α → List κ → Prop)
    (E : ε → List κ → Prop) : Prop :=
  I (x.run s).2 ∧ ∃ new, view (x.run s).2 = view s ++ new ∧ (∀ a, (x.run s).1 = .ok a → P a new) ∧
    ∀ e, (x.run s).1 = .error e → E e new

/-! ## A state with a transcript in it -/

section

variable {σ : Type} {view : σ → List κ} {I : σ → Prop} {x : Exec σ ε α} {f : α → Exec σ ε β} {s : σ}
  {P P' : α → List κ → Prop} {Q : β → List κ → Prop} {E E' : ε → List κ → Prop}

theorem Records.mono (h : Records view I x s P E) (hP : ∀ a new, P a new → P' a new)
    (hE : ∀ e new, E e new → E' e new) : Records view I x s P' E' := by
  obtain ⟨hI, new, hnew, hok, herr⟩ := h
  exact ⟨hI, new, hnew, fun a ha => hP a new (hok a ha), fun e he => hE e new (herr e he)⟩

theorem records_pure {a : α} (hs : I s) (h : P a []) : Records view I (pure a) s P E :=
  ⟨hs, [], (List.append_nil _).symm, by rintro _ ⟨⟩; exact h, by rintro _ ⟨⟩⟩

theorem records_lift (r : Except ε α) (hs : I s) :
    Records view I (lift r) s (fun a new => new = [] ∧ r = .ok a) fun e new => new = [] ∧ r = .error e :=
  ⟨hs, [], (List.append_nil _).symm, fun _ h => ⟨rfl, h⟩, fun _ h => ⟨rfl, h⟩⟩

theorem Records.bind (hx : Records view I x s P E)
    (hf : ∀ a new s', I s' → view s' = view s ++ new → P a new →
      Records view I (f a) s' (fun b more => Q b (new ++ more)) fun e more => E' e (new ++ more))
    (hE : ∀ e new, E e new → E' e new) : Records view I (x >>= f) s Q E' := by
  obtain ⟨hI, new, hnew, hok, herr⟩ := hx
  cases hr : (x.run s).1 with
  | error e =>
    have hrun := run_bind_error (f := f) (show x.run s = (.error e, (x.run s).2) from Prod.ext hr rfl)
    rw [Records, hrun]
    refine ⟨hI, new, hnew, fun b hb => ?_, fun e' he => ?_⟩
    · cases hb
    · cases he; exact hE e new (herr e hr)
  | ok a =>
    have hrun := run_bind_ok (f := f) (show x.run s = (.ok a, (x.run s).2) from Prod.ext hr rfl)
    obtain ⟨hI', more, hmore, hok', herr'⟩ := hf a new _ hI hnew (hok a hr)
    rw [Records, hrun]
    exact ⟨hI', new ++ more, by rw [hmore, hnew, List.append_assoc], hok', herr'⟩

/-- The invariant `J` is about the items done, what they gave and what was added. -/
theorem records_collect {J : List α → List β → List κ → Prop} {items : List α}
    (hstep : ∀ done a todo bs new t, items = done ++ a :: todo → I t → J done bs new →
      Records view I (f a) t (fun b more => J (done ++ [a]) (bs ++ [b]) (new ++ more)) fun e more => E e (new ++ more))
    (hs : I s) (h : J [] [] []) : Records view I (collect items f) s (fun bs new => J items bs new) E := by
  have key : ∀ (todo done : List α) (bs : List β) (new : List κ) (t : σ), items = done ++ todo → I t →
      J done bs new → Records view I (collect todo f) t (fun rest more => J items (bs ++ rest) (new ++ more))
        fun e more => E e (new ++ more) := by
    intro todo
    induction todo with
    | nil =>
      intro done bs new t hitems ht h
      rw [List.append_nil] at hitems
      exact records_pure ht (by rw [List.append_nil, List.append_nil, hitems]; exact h)
    | cons a todo ih =>
      intro done bs new t hitems ht h
      refine (hstep done a todo bs new t hitems ht h).bind (fun b more u hu _ hJ => ?_) fun e more he => he
      have hrest := ih (done ++ [a]) (bs ++ [b]) (new ++ more) u (by rw [hitems, List.append_assoc]; rfl) hu hJ
      refine hrest.bind (fun rest more' v hv _ hJ' => records_pure hv ?_) fun e more' he => ?_
      · rwa [List.append_nil, ← List.append_assoc new, List.append_cons bs]
      · rwa [← List.append_assoc]
  exact key items [] [] [] s rfl hs h

end

/-! ## The state is the transcript -/

def Logs (x : Exec (List κ) ε α) (log : List κ) (P : α → List κ → Prop) (E : ε → List κ → Prop) : Prop :=
  ∃ new, (x.run log).2 = log ++ new ∧ (∀ a, (x.run log).1 = .ok a → P a new) ∧
    ∀ e, (x.run log).1 = .error e → E e new

variable {x : Exec (List κ) ε α} {f : α → Exec (List κ) ε β} {log : List κ} {P P' : α → List κ → Prop}
  {Q : β → List κ → Prop} {E E' : ε → List κ → Prop}

theorem logs_iff : Logs x log P E ↔ Records id (fun _ => True) x log P E :=
  ⟨fun h => ⟨trivial, h⟩, fun h => h.2⟩

theorem Logs.mono (h : Logs x log P E) (hP : ∀ a new, P a new → P' a new) (hE : ∀ e new, E e new → E' e new) :
    Logs x log P' E' :=
  logs_iff.mpr ((logs_iff.mp h).mono hP hE)

theorem logs_pure {a : α} (h : P a []) : Logs (pure a) log P E := logs_iff.mpr (records_pure trivial h)

theorem logs_lift (r : Except ε α) (log : List κ) :
    Logs (lift r) log (fun a new => new = [] ∧ r = .ok a) fun e new => new = [] ∧ r = .error e :=
  logs_iff.mpr (records_lift r trivial)

theorem Logs.mapError {ε' : Type} {f : ε → ε'} {F : ε' → List κ → Prop} (h : Logs x log P E)
    (hF : ∀ e new, E e new → F (f e) new) : Logs (mapError f x) log P F := by
  obtain ⟨new, hnew, hok, herr⟩ := h
  have hrun : ((Exec.mapError f x).run log).1 = (x.run log).1.mapError f := rfl
  refine ⟨new, hnew, fun a ha => ?_, fun e' he => ?_⟩
  · cases hr : (x.run log).1 with
    | error e => rw [hrun, hr] at ha; cases ha
    | ok b => rw [hrun, hr] at ha; cases ha; exact hok _ hr
  · cases hr : (x.run log).1 with
    | error e => rw [hrun, hr] at he; cases he; exact hF e new (herr e hr)
    | ok b => rw [hrun, hr] at he; cases he

theorem Logs.bind (hx : Logs x log P E)
    (hf : ∀ a new, P a new → Logs (f a) (log ++ new) (fun b more => Q b (new ++ more)) fun e more => E' e (new ++ more))
    (hE : ∀ e new, E e new → E' e new) : Logs (x >>= f) log Q E' := by
  refine logs_iff.mpr ((logs_iff.mp hx).bind (fun a new s' _ hview hP => ?_) hE)
  obtain rfl : s' = log ++ new := hview
  exact logs_iff.mp (hf a new hP)

/-- The invariant `J` is about the items done, the value so far and what was added. -/
theorem logs_foldlM {f : β → α → Exec (List κ) ε β} {J : List α → β → List κ → Prop} {items : List α}
    (hstep : ∀ done a todo b new, items = done ++ a :: todo → J done b new → Logs (f b a) (log ++ new)
      (fun b' more => J (done ++ [a]) b' (new ++ more)) fun e more => E e (new ++ more)) {b : β} (h : J [] b []) :
    Logs (items.foldlM f b) log (fun b' new => J items b' new) E := by
  have key : ∀ (todo done : List α) (b : β) (new : List κ), items = done ++ todo → J done b new →
      Logs (todo.foldlM f b) (log ++ new) (fun b' more => J items b' (new ++ more))
        fun e more => E e (new ++ more) := by
    intro todo
    induction todo with
    | nil =>
      intro done b new hitems h
      rw [List.append_nil] at hitems
      exact logs_pure (by rw [List.append_nil, hitems]; exact h)
    | cons a todo ih =>
      intro done b new hitems h
      rw [List.foldlM_cons]
      refine (hstep done a todo b new hitems h).bind (fun b' more hJ => ?_) fun e more he => he
      have hrest := ih (done ++ [a]) b' (new ++ more) (by rw [hitems, List.append_assoc]; rfl) hJ
      rw [← List.append_assoc] at hrest
      refine hrest.mono (fun b'' rest hr => ?_) fun e rest hr => ?_
      · rwa [List.append_assoc] at hr
      · rwa [List.append_assoc] at hr
  simpa using key items [] b [] rfl h

/-- One question to the service. -/
def call (service : Service π ρ ε) (prompt : π) : Exec (List (Exchange π ρ ε)) ε ρ := do
  let log ← get
  modify (· ++ [⟨prompt, service log prompt⟩])
  lift (service log prompt)

theorem logs_call (service : Service π ρ ε) (prompt : π) (log : List (Exchange π ρ ε)) :
    Logs (call service prompt) log (fun answer new => new = [⟨prompt, .ok answer⟩])
      fun e new => new = [⟨prompt, .error e⟩] := by
  refine ⟨[⟨prompt, service log prompt⟩], rfl, fun answer ha => ?_, fun e he => ?_⟩
  · rw [show service log prompt = .ok answer from ha]
  · rw [show service log prompt = .error e from he]

end Exec

end MasResearch
