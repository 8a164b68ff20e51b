import MasResearch.Core.Transcript
import MasResearch.L2Agents.LlmJson

/-!
# Asking the language model (`agents/_llm_json.py`)

`askWithRetry` is `parse_with_retry` with the model as a service: what it answers may depend on
all it was asked before, and a call may raise.

* `logs_askWithRetry`: the prompts are the user's text, as it is first and with the hint after
  that, a validated answer is found unless there is none among them, and what is raised was
  raised by a call or by reading an answer.
-/
namespace MasResearch.L2

/-- mirrors src/adapters/llm.py:26-32 -/
abbrev Llm (ε : Type) : Type := Service Text Text ε

/-- What is raised around the model: by a call, or by reading its answer. -/
inductive LlmError (ε : Type) where
  | call (e : ε)
  | parse (fault : Json.Fault)

abbrev LlmM (ε : Type) : Type → Type := Exec (List (Exchange Text Text ε)) (LlmError ε)

section

variable {ε μ : Type} (α : Alphabet) (depth : Nat) (modelValidate : Json → Except Json.Fault (Option μ))

/-- mirrors src/agents/_llm_json.py:36-37 -/
def askOnce (llm : Llm ε) (prompt : Text) : LlmM ε (Option μ) := do
  let response ← Exec.mapError .call (Exec.call llm prompt)
  Exec.lift ((parse α depth modelValidate response).mapError .parse)

/-- The attempts that are left, from the prompt on. -/
def askAttempts (llm : Llm ε) (user : Text) : Nat → Text → LlmM ε (Option μ)
  | 0, _ => pure none
  | n + 1, prompt => do
    let parsed ← askOnce α depth modelValidate llm prompt
    match parsed with
    | some parsed => pure (some parsed)
    | none => askAttempts llm user n (user ++ retryHint)

/-- mirrors src/agents/_llm_json.py:25-44 -/
def askWithRetry (llm : Llm ε) (user : Text) (retries : Nat) : LlmM ε (Option μ) :=
  askAttempts α depth modelValidate llm user (retries + 1) user

/-- The validated model behind an answer, if it is one. -/
def parsedAnswer (x : Exchange Text Text ε) : Except Json.Fault (Option μ) :=
  match x.answer with
  | .ok response => parse α depth modelValidate response
  | .error _ => .ok none

/-- What comes back is among the answers, and nothing comes back only if there is nothing. -/
def FoundIn (result : Option μ) (new : List (Exchange Text Text ε)) : Prop :=
  (∀ m, result = some m → ∃ x ∈ new, parsedAnswer α depth modelValidate x = .ok (some m)) ∧
    (result = none → ∀ x ∈ new, parsedAnswer α depth modelValidate x = .ok none)

/-- A call raised it, or the reading of an answer. -/
def RaisedIn (new : List (Exchange Text Text ε)) : LlmError ε → Prop
  | .call e => ∃ x ∈ new, x.answer = .error e
  | .parse fault => ∃ x ∈ new, parsedAnswer α depth modelValidate x = .error fault

/-- The questions about one text. -/
structure About (user : Text) (attempts : Nat) (new : List (Exchange Text Text ε)) : Prop where
  length : new.length ≤ attempts
  prompt : ∀ x ∈ new, x.prompt = user ∨ x.prompt = user ++ retryHint

variable {α depth modelValidate} {llm : Llm ε} {user : Text}

theorem FoundIn.cons {x : Exchange Text Text ε} {result : Option μ} {new : List (Exchange Text Text ε)}
    (hx : parsedAnswer α depth modelValidate x = .ok none) (h : FoundIn α depth modelValidate result new) :
    FoundIn α depth modelValidate result (x :: new) :=
  ⟨fun m hm => (h.1 m hm).imp fun _ hy => ⟨List.mem_cons_of_mem _ hy.1, hy.2⟩,
    fun hn => List.forall_mem_cons.mpr ⟨hx, h.2 hn⟩⟩

theorem RaisedIn.mono {new new' : List (Exchange Text Text ε)} (hsub : new ⊆ new') {e : LlmError ε}
    (h : RaisedIn α depth modelValidate new e) : RaisedIn α depth modelValidate new' e := by
  cases e with
  | call e => exact h.imp fun _ hx => ⟨hsub hx.1, hx.2⟩
  | parse fault => exact h.imp fun _ hx => ⟨hsub hx.1, hx.2⟩

theorem About.cons {x : Exchange Text Text ε} {attempts : Nat} {new : List (Exchange Text Text ε)}
    (hx : x.prompt = user ∨ x.prompt = user ++ retryHint) (h : About user attempts new) :
    About user (attempts + 1) (x :: new) :=
  ⟨Nat.succ_le_succ h.length, List.forall_mem_cons.mpr ⟨hx, h.prompt⟩⟩

/-- One attempt. -/
theorem logs_askOnce (llm : Llm ε) (prompt : Text) (log : List (Exchange Text Text ε)) :
    Exec.Logs (askOnce α depth modelValidate llm prompt) log
      (fun parsed new => ∃ x, new = [x] ∧ x.prompt = prompt ∧ parsedAnswer α depth modelValidate x = .ok parsed)
      (fun e new => (∃ x, new = [x] ∧ x.prompt = prompt) ∧ RaisedIn α depth modelValidate new e) := by
  refine ((Exec.logs_call llm prompt log).mapError
    (F := fun e new => (∃ x, new = [x] ∧ x.prompt = prompt) ∧ RaisedIn α depth modelValidate new e) ?_).bind ?_
      fun e new h => h
  · rintro e _ rfl
    exact ⟨⟨_, rfl, rfl⟩, _, List.mem_singleton_self _, rfl⟩
  · rintro response _ rfl
    refine (Exec.logs_lift _ _).mono ?_ ?_
    · rintro parsed _ ⟨rfl, hp⟩
      refine ⟨_, List.append_nil _, rfl, ?_⟩
      cases hr : parse α depth modelValidate response with
      | error fault => rw [hr] at hp; cases hp
      | ok m => rw [hr] at hp; cases hp; exact hr
    · rintro e _ ⟨rfl, hp⟩
      rw [List.append_nil]
      refine ⟨⟨_, rfl, rfl⟩, ?_⟩
      cases hr : parse α depth modelValidate response with
      | error fault => rw [hr] at hp; cases hp; exact ⟨_, List.mem_singleton_self _, hr⟩
      | ok m => rw [hr] at hp; cases hp

theorem logs_askAttempts : ∀ (n : Nat) (prompt : Text) (log : List (Exchange Text Text ε)),
    prompt = user ∨ prompt = user ++ retryHint →
    Exec.Logs (askAttempts α depth modelValidate llm user n prompt) log
      (fun result new => About user n new ∧ FoundIn α depth modelValidate result new ∧
        (n ≠ 0 → ∃ x ∈ new, x.prompt = prompt))
      (fun e new => About user n new ∧ RaisedIn α depth modelValidate new e)
  | 0, _, _, _ => Exec.logs_pure ⟨⟨le_rfl, List.forall_mem_nil _⟩, ⟨by rintro _ ⟨⟩, fun _ => List.forall_mem_nil _⟩,
      fun h => absurd rfl h⟩
  | n + 1, prompt, log, hprompt => by
    refine (logs_askOnce llm prompt log).bind ?_ ?_
    · rintro result _ ⟨x, rfl, rfl, hp⟩
      cases result with
      | some parsed =>
        refine Exec.logs_pure ⟨⟨by simp, by simpa using hprompt⟩, ⟨?_, by rintro ⟨⟩⟩,
          fun _ => ⟨x, by simp, rfl⟩⟩
        rintro _ ⟨⟩
        exact ⟨_, List.mem_cons_self, hp⟩
      | none =>
        refine (logs_askAttempts n (user ++ retryHint) _ (.inr rfl)).mono ?_ ?_
        · rintro result new ⟨habout, hfound, -⟩
          exact ⟨habout.cons hprompt, hfound.cons hp, fun _ => ⟨_, List.mem_cons_self, rfl⟩⟩
        · rintro e new ⟨habout, hraised⟩
          exact ⟨habout.cons hprompt, hraised.mono (List.subset_cons_self _ _)⟩
    · rintro e _ ⟨⟨x, rfl, rfl⟩, hraised⟩
      exact ⟨⟨by simp, by simpa using hprompt⟩, hraised⟩

/-- **What one call asks and returns.** -/
theorem logs_askWithRetry (α : Alphabet) (depth : Nat) (modelValidate : Json → Except Json.Fault (Option μ))
    (llm : Llm ε) (user : Text) (retries : Nat) (log : List (Exchange Text Text ε)) :
    Exec.Logs (askWithRetry α depth modelValidate llm user retries) log
      (fun result new => About user (retries + 1) new ∧ FoundIn α depth modelValidate result new ∧
        ∃ x ∈ new, x.prompt = user)
      (fun e new => About user (retries + 1) new ∧ RaisedIn α depth modelValidate new e) :=
  (logs_askAttempts (retries + 1) user log (.inl rfl)).mono
    (fun _ _ h => ⟨h.1, h.2.1, h.2.2 (Nat.succ_ne_zero _)⟩) fun _ _ h => h

end

end MasResearch.L2
