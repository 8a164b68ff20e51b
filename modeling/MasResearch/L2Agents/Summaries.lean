import MasResearch.L2Agents.LlmCalls
import MasResearch.L2Agents.Summarizer
import MasResearch.L2Store.ResultRows

/-!
# The summarizer agent (`agents/summarizer.py`): calls and reply

A text that fits is summarised by one call. Of a longer one each block is, the blocks the model
gives no valid summary of are left out, and a last call reduces what is left; if that one fails,
the first block's summary stands for all. Every call has two retries.

* `logs_summarize`: what the model is asked, how often, and what becomes of its answers.
* `handle_replied`: what the agent informs or refuses.
-/
namespace MasResearch.L2.Summarizer

open MasResearch.L1

/-! ## The functions -/

/-- mirrors src/agents/summarizer.py:55-60 -/
structure RawSummary where
  introduction : Text
  keyPoints : Text
  conclusions : Text

/-- What the agent's methods call besides the model, and the limits of the interpreter: the containers
`json.loads` lets be open around another and the calls that flattening may nest. -/
structure Deps where
  alphabet : Alphabet
  floatText : Text → Text
  str : Value → String
  depth : Nat
  frames : Nat

/-- mirrors src/agents/summarizer.py:62-65 -/
def Deps.coerceToStr (deps : Deps) (value : Json) : Except Json.Fault Text :=
  if flattenFrames value ≤ deps.frames then .ok (flattenToText deps.floatText value) else .error .recursionError

/-- `_RawSummary.model_validate`: each field that is there is coerced, also when another is missing.
mirrors src/agents/summarizer.py:55-65 -/
def Deps.rawSummary (deps : Deps) (json : Json) : Except Json.Fault (Option RawSummary) := do
  let field (key : String) := (json.get? key.toList).mapM deps.coerceToStr
  let introduction ← field "introduction"
  let keyPoints ← field "key_points"
  let conclusions ← field "conclusions"
  return do return ⟨← introduction, ← keyPoints, ← conclusions⟩

/-- mirrors src/agents/summarizer.py:137-139 -/
def partText (part : RawSummary) : Text :=
  "Введение: ".toList ++ part.introduction ++ "\nТезисы: ".toList ++ part.keyPoints ++ "\nВыводы: ".toList ++
    part.conclusions

/-- mirrors src/agents/summarizer.py:136-144 -/
def reducePrompt (parts : List RawSummary) : Text :=
  ("Объедини частичные саммари в одно итоговое саммари. Сохрани ВСЕ отдельные ключевые тезисы из каждого " ++
    "частичного саммари — не объединяй разные идеи и не выбрасывай детали:\n").toList ++
    join "\n\n".toList (parts.map partText)

/-- mirrors src/agents/summarizer.py:26 -/
def maxParseRetries : Nat := 2

section

variable {ε : Type} (deps : Deps) (llm : Llm ε) (agent : SummarizerAgent)

/-- mirrors src/agents/summarizer.py:146-149 -/
def callModel (user : Text) : LlmM ε (Option RawSummary) :=
  askWithRetry deps.alphabet deps.depth deps.rawSummary llm user maxParseRetries

/-- One round of the loop over the blocks.
mirrors src/agents/summarizer.py:119-122 -/
def addPart (parts : List RawSummary) (block : Text) : LlmM ε (List RawSummary) := do
  let part ← callModel deps llm block
  pure (parts ++ part.toList)

/-- mirrors src/agents/summarizer.py:106-130 -/
def summarize (text : Text) : LlmM ε (Option RawSummary) :=
  if text.length ≤ agent.blockChars then callModel deps llm text
  else do
    let parts ← (agent.split text).foldlM (addPart deps llm) []
    match parts with
    | [] => pure none
    | [sole] => pure (some sole)
    | first :: _ => do
      let reduced ← callModel deps llm (reducePrompt parts)
      pure (some (reduced.getD first))

/-- The chunks of a request that are dicts.
mirrors src/agents/summarizer.py:84-85, src/agents/terminology.py:195-196 -/
def chunkDicts (content : Content) : List Content :=
  match content.get? "chunks" with
  | some (.list raw) => raw.filterMap Value.asDict
  | _ => []

/-- mirrors src/agents/summarizer.py:86-87 -/
def combined (content : Content) : Text :=
  strip (joinNonempty ['\n'] ((chunkDicts content).map fun chunk =>
    (deps.str ((chunk.get? "content").getD (.str ""))).toList))

/-- mirrors src/agents/summarizer.py:93 -/
def sourceChunkIds (content : Content) : List String := ((chunkDicts content).filterMap (·.get? "id")).map deps.str

/-- mirrors src/agents/summarizer.py:83-104 -/
def handle (taskId : String) (content : Content) : LlmM ε (Except String Content) :=
  if combined deps content = [] then pure (.error "no chunk content to summarize")
  else do
    let raw ← summarize deps llm agent (combined deps content)
    match raw with
    | none => pure (.error "llm returned invalid summary json")
    | some raw => pure (.ok (summarizerContent taskId (String.ofList raw.introduction) (String.ofList raw.keyPoints)
        (String.ofList raw.conclusions) (sourceChunkIds deps content)))

end

/-! ## What the model is asked -/

section

variable {ε : Type} {deps : Deps} {llm : Llm ε} {agent : SummarizerAgent} {text : Text}
  {new more : List (Exchange Text Text ε)}

/-- The texts that are summarised one by one. -/
def pieces (agent : SummarizerAgent) (text : Text) : List Text :=
  if text.length ≤ agent.blockChars then [text] else agent.split text

/-- The most calls a text can cost. -/
def budget (agent : SummarizerAgent) (text : Text) : Nat :=
  if text.length ≤ agent.blockChars then 3 else 3 * ((agent.split text).length + 1)

/-- The valid summary in an answer. -/
def summaryIn (deps : Deps) (x : Exchange Text Text ε) : Except Json.Fault (Option RawSummary) :=
  parsedAnswer deps.alphabet deps.depth deps.rawSummary x

/-- A call raised it, or the reading of an answer. -/
def Raised (deps : Deps) (new : List (Exchange Text Text ε)) (e : LlmError ε) : Prop :=
  RaisedIn deps.alphabet deps.depth deps.rawSummary new e

/-- The exchange is about the text, as it is or with the hint. -/
def Concerns (x : Exchange Text Text ε) (user : Text) : Prop := x.prompt = user ∨ x.prompt = user ++ retryHint

/-- The parts are summaries that were found. -/
def Found (deps : Deps) (parts : List RawSummary) (new : List (Exchange Text Text ε)) : Prop :=
  ∀ part ∈ parts, ∃ x ∈ new, summaryIn deps x = .ok (some part)

/-- What the model was asked about a text. -/
structure Asks (deps : Deps) (agent : SummarizerAgent) (text : Text) (new : List (Exchange Text Text ε)) : Prop where
  calls : new.length ≤ budget agent text
  prompt : ∀ x ∈ new, (∃ piece ∈ pieces agent text, Concerns x piece) ∨
    ∃ parts, Found deps parts new ∧ Concerns x (reducePrompt parts)

/-- After the blocks `done`. -/
structure PartsInv (deps : Deps) (done : List Text) (parts : List RawSummary)
    (new : List (Exchange Text Text ε)) : Prop where
  calls : new.length ≤ 3 * done.length
  prompt : ∀ x ∈ new, ∃ block ∈ done, Concerns x block
  asked : ∀ block ∈ done, ∃ x ∈ new, x.prompt = block
  found : Found deps parts new
  missed : parts = [] → ∀ x ∈ new, summaryIn deps x = .ok none

theorem Found.append {parts : List RawSummary} (h : Found deps parts new) (more : List (Exchange Text Text ε)) :
    Found deps parts (new ++ more) := fun part hp =>
  (h part hp).imp fun _ hx => ⟨List.mem_append_left _ hx.1, hx.2⟩

theorem logs_callModel (deps : Deps) (llm : Llm ε) (user : Text) (log : List (Exchange Text Text ε)) :
    Exec.Logs (callModel deps llm user) log
      (fun result new => About user 3 new ∧ FoundIn deps.alphabet deps.depth deps.rawSummary result new ∧
        ∃ x ∈ new, x.prompt = user)
      (fun e new => About user 3 new ∧ Raised deps new e) :=
  logs_askWithRetry deps.alphabet deps.depth deps.rawSummary llm user maxParseRetries log

/-- One block. -/
theorem PartsInv.add {done : List Text} {parts : List RawSummary} {block : Text} {result : Option RawSummary}
    (h : PartsInv deps done parts new) (habout : About block 3 more)
    (hfound : FoundIn deps.alphabet deps.depth deps.rawSummary result more) (hasked : ∃ x ∈ more, x.prompt = block) :
    PartsInv deps (done ++ [block]) (parts ++ result.toList) (new ++ more) where
  calls := by
    have := h.calls
    have := habout.length
    simp only [List.length_append, List.length_singleton]
    omega
  prompt x hx := by
    rcases List.mem_append.mp hx with hx | hx
    · obtain ⟨b, hb, hc⟩ := h.prompt x hx
      exact ⟨b, List.mem_append_left _ hb, hc⟩
    · exact ⟨block, by simp, habout.prompt x hx⟩
  asked b hb := by
    rcases List.mem_append.mp hb with hb | hb
    · exact (h.asked b hb).imp fun _ hx => ⟨List.mem_append_left _ hx.1, hx.2⟩
    · obtain rfl := List.mem_singleton.mp hb
      exact hasked.imp fun _ hx => ⟨List.mem_append_right _ hx.1, hx.2⟩
  found part hp := by
    rcases List.mem_append.mp hp with hp | hp
    · exact h.found.append more part hp
    · exact (hfound.1 part (by simpa using hp)).imp fun _ hx => ⟨List.mem_append_right _ hx.1, hx.2⟩
  missed hnil x hx := by
    rw [List.append_eq_nil_iff] at hnil
    rcases List.mem_append.mp hx with hx | hx
    · exact h.missed hnil.1 x hx
    · exact hfound.2 (by simpa using hnil.2) x hx

/-- The loop over the blocks. -/
theorem logs_parts (deps : Deps) (llm : Llm ε) (blocks : List Text) (log : List (Exchange Text Text ε)) :
    Exec.Logs (blocks.foldlM (addPart deps llm) []) log (fun parts new => PartsInv deps blocks parts new)
      (fun e new => new.length ≤ 3 * blocks.length ∧ (∀ x ∈ new, ∃ block ∈ blocks, Concerns x block) ∧
        Raised deps new e) := by
  refine Exec.logs_foldlM ?_ ⟨le_rfl, by simp, by simp, by simp [Found], by simp⟩
  intro done block todo parts new hblocks h
  refine (logs_callModel deps llm block _).bind ?_ ?_
  · rintro result more ⟨habout, hfound, hasked⟩
    refine Exec.logs_pure ?_
    rw [List.append_nil]
    exact h.add habout hfound hasked
  · rintro e more ⟨habout, hraised⟩
    have hlen : blocks.length = done.length + (todo.length + 1) := by rw [hblocks]; simp
    have := h.calls
    have := habout.length
    refine ⟨by rw [List.length_append]; omega, fun y hy => ?_, hraised.mono (List.subset_append_right _ _)⟩
    rcases List.mem_append.mp hy with hy | hy
    · obtain ⟨b, hb, hc⟩ := h.prompt y hy
      exact ⟨b, by rw [hblocks]; exact List.mem_append_left _ hb, hc⟩
    · exact ⟨block, by rw [hblocks]; simp, habout.prompt y hy⟩

/-! ## Map and reduce -/

theorem Asks.of_blocks (hlong : ¬ (text.length : Int) ≤ agent.blockChars)
    (hcalls : new.length ≤ 3 * (agent.split text).length)
    (hprompt : ∀ x ∈ new, ∃ block ∈ agent.split text, Concerns x block) : Asks deps agent text new where
  calls := by rw [budget, if_neg hlong]; omega
  prompt x hx := .inl (by rw [pieces, if_neg hlong]; exact hprompt x hx)

/-- The reducing call. -/
theorem Asks.reduced (hlong : ¬ (text.length : Int) ≤ agent.blockChars) {parts : List RawSummary}
    (h : PartsInv deps (agent.split text) parts new) (habout : About (reducePrompt parts) 3 more) :
    Asks deps agent text (new ++ more) where
  calls := by
    have := h.calls
    have := habout.length
    rw [budget, if_neg hlong, List.length_append]
    omega
  prompt x hx := by
    rcases List.mem_append.mp hx with hx | hx
    · exact .inl (by rw [pieces, if_neg hlong]; exact h.prompt x hx)
    · exact .inr ⟨parts, h.found.append more, habout.prompt x hx⟩

/-- **Summarising a text.** -/
theorem logs_summarize (deps : Deps) (llm : Llm ε) (agent : SummarizerAgent) (text : Text)
    (log : List (Exchange Text Text ε)) :
    Exec.Logs (summarize deps llm agent text) log
      (fun result new => Asks deps agent text new ∧ FoundIn deps.alphabet deps.depth deps.rawSummary result new ∧
        ∀ piece ∈ pieces agent text, ∃ x ∈ new, x.prompt = piece)
      (fun e new => Asks deps agent text new ∧ Raised deps new e) := by
  unfold summarize
  by_cases hfits : (text.length : Int) ≤ agent.blockChars
  · have hasks : ∀ {new : List (Exchange Text Text ε)}, About text 3 new → Asks deps agent text new := fun habout =>
      ⟨by rw [budget, if_pos hfits]; exact habout.length,
        fun x hx => .inl ⟨text, by rw [pieces, if_pos hfits]; simp, habout.prompt x hx⟩⟩
    rw [if_pos hfits]
    refine (logs_callModel deps llm text log).mono ?_ ?_
    · rintro result new ⟨habout, hfound, hasked⟩
      refine ⟨hasks habout, hfound, fun piece hp => ?_⟩
      rw [pieces, if_pos hfits, List.mem_singleton] at hp
      rw [hp]
      exact hasked
    · rintro e new ⟨habout, hraised⟩
      exact ⟨hasks habout, hraised⟩
  · rw [if_neg hfits]
    have hpieces : pieces agent text = agent.split text := if_neg hfits
    rw [hpieces]
    refine (logs_parts deps llm (agent.split text) log).bind ?_ ?_
    · intro parts new h
      match parts, h with
      | [], h =>
        refine Exec.logs_pure ?_
        rw [List.append_nil]
        exact ⟨.of_blocks hfits h.calls h.prompt, ⟨by rintro _ ⟨⟩, fun _ => h.missed rfl⟩, h.asked⟩
      | [sole], h =>
        refine Exec.logs_pure ?_
        rw [List.append_nil]
        refine ⟨.of_blocks hfits h.calls h.prompt, ⟨?_, by rintro ⟨⟩⟩, h.asked⟩
        rintro _ ⟨⟩
        exact h.found sole (by simp)
      | first :: second :: rest, h =>
        refine (logs_callModel deps llm _ _).bind ?_ ?_
        · rintro result more ⟨habout, hfound, -⟩
          refine Exec.logs_pure ?_
          rw [List.append_nil]
          refine ⟨.reduced hfits h habout, ⟨?_, by rintro ⟨⟩⟩, fun piece hp => ?_⟩
          · rintro _ ⟨⟩
            cases result with
            | none => exact h.found.append more first (by simp)
            | some m => exact (hfound.1 m rfl).imp fun _ hx => ⟨List.mem_append_right _ hx.1, hx.2⟩
          · exact (h.asked piece hp).imp fun _ hx => ⟨List.mem_append_left _ hx.1, hx.2⟩
        · rintro e more ⟨habout, hraised⟩
          exact ⟨.reduced hfits h habout, hraised.mono (List.subset_append_right _ _)⟩
    · rintro e new ⟨hcalls, hprompt, hraised⟩
      exact ⟨.of_blocks hfits hcalls hprompt, hraised⟩

/-- What the agent replies, by what the model was asked and answered. -/
inductive Replied (deps : Deps) (agent : SummarizerAgent) (taskId : String) (content : Content)
    (new : List (Exchange Text Text ε)) : Except String Content → Prop
  | empty (hnone : combined deps content = []) (hnew : new = []) :
      Replied deps agent taskId content new (.error "no chunk content to summarize")
  | declined (hsome : combined deps content ≠ []) (hasks : Asks deps agent (combined deps content) new)
      (hpieces : ∀ piece ∈ pieces agent (combined deps content), ∃ x ∈ new, x.prompt = piece)
      (hnot : ∀ x ∈ new, summaryIn deps x = .ok none) :
      Replied deps agent taskId content new (.error "llm returned invalid summary json")
  | informed {raw : RawSummary} (hsome : combined deps content ≠ [])
      (hasks : Asks deps agent (combined deps content) new)
      (hpieces : ∀ piece ∈ pieces agent (combined deps content), ∃ x ∈ new, x.prompt = piece)
      (hfound : ∃ x ∈ new, summaryIn deps x = .ok (some raw)) :
      Replied deps agent taskId content new (.ok (summarizerContent taskId (String.ofList raw.introduction)
        (String.ofList raw.keyPoints) (String.ofList raw.conclusions) (sourceChunkIds deps content)))

theorem logs_replied (deps : Deps) (llm : Llm ε) (agent : SummarizerAgent) (taskId : String) (content : Content)
    (log : List (Exchange Text Text ε)) :
    Exec.Logs (handle deps llm agent taskId content) log
      (fun reply new => Replied deps agent taskId content new reply)
      (fun e new => Asks deps agent (combined deps content) new ∧ Raised deps new e) := by
  unfold handle
  by_cases hnone : combined deps content = []
  · rw [if_pos hnone]
    exact Exec.logs_pure (.empty hnone rfl)
  · rw [if_neg hnone]
    refine (logs_summarize deps llm agent (combined deps content) log).bind ?_ fun e new h => h
    rintro result new ⟨hasks, hfound, hpieces⟩
    cases result with
    | none =>
      refine Exec.logs_pure ?_
      rw [List.append_nil]
      exact .declined hnone hasks hpieces (hfound.2 rfl)
    | some raw =>
      refine Exec.logs_pure ?_
      rw [List.append_nil]
      exact .informed hnone hasks hpieces (hfound.1 raw rfl)

end

theorem latin_space (c : Char) (h : isSpace c = true) : c.isAlpha = false :=
  have hall : ∀ c ∈ spaces, c.isAlpha = false := forall_mem_of_all (by decide)
  hall c (of_decide_eq_true h)

theorem latin_brace : '{'.isAlpha = false := by decide

theorem latin_backtick : backtick.isAlpha = false := by decide

def latin : Alphabet := ⟨Char.isAlpha, latin_space, latin_brace, latin_backtick⟩

/-- A value that is no string is shown as nothing. -/
def latinDeps : Deps where
  alphabet := latin
  floatText := id
  str v := match v with
    | .str s => s
    | _ => ""
  depth := 9000
  frames := 900

end MasResearch.L2.Summarizer
