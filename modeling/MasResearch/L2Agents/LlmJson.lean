import MasResearch.Core.Json

/-!
# The JSON in an LLM's answer (`agents/_llm_json.py`)

A model is asked for a JSON object and may put it in a code fence or between prose.
`extractJson` takes the text between the first two fences, if there are two, without a
language tag, and of that the span from the first opening to the last closing brace. It
never looks at the JSON itself.

* `extractJson_closed`: where two fences are found, what comes out contains none.
* `extractJson_open`: where they are not, a braced text comes out of any prose.
* `extractJson_fenced`: a braced text without a fence comes out of a closed one.
-/
namespace MasResearch.L2

/-! ## The functions -/

def backtick : Char := '\x60'

def fence : Text := List.replicate 3 backtick

/-- The letters of `str.isalpha`. -/
structure Alphabet where
  isAlpha : Char → Bool
  space : ∀ c, isSpace c = true → isAlpha c = false
  brace : isAlpha '{' = false
  backtick : isAlpha backtick = false

/-- `text.isalpha()`. -/
def Alphabet.isalpha (α : Alphabet) (text : Text) : Bool := !text.isEmpty && text.all α.isAlpha

/-- mirrors src/agents/_llm_json.py:61-63 -/
def dropTag (α : Alphabet) (inner : Text) : Text :=
  match find ['\n'] inner with
  | some newline => if α.isalpha (strip (inner.take newline)) then inner.drop (newline + 1) else inner
  | none => inner

/-- mirrors src/agents/_llm_json.py:56-64 -/
def unfence (α : Alphabet) (text : Text) : Text :=
  match find fence text with
  | some opened =>
    let afterOpen := text.drop (opened + 3)
    match find fence afterOpen with
    | some fenceClose => strip (dropTag α (strip (afterOpen.take fenceClose)))
    | none => text
  | none => text

/-- mirrors src/agents/_llm_json.py:65-69 -/
def outermost (text : Text) : Text :=
  match find ['{'] text, rfind '}' text with
  | some openBrace, some closeBrace =>
    if openBrace < closeBrace then (text.take (closeBrace + 1)).drop openBrace else text
  | _, _ => text

/-- mirrors src/agents/_llm_json.py:47-69 -/
def extractJson (α : Alphabet) (response : Text) : Text := outermost (unfence α (strip response))

/-- `model_cls.model_validate` is a parameter. Of what `json.loads` and it raise only the
`JSONDecodeError` and the `ValidationError` are caught.
mirrors src/agents/_llm_json.py:72-80 -/
def parse {μ : Type} (α : Alphabet) (depth : Nat) (modelValidate : Json → Except Json.Fault (Option μ))
    (response : Text) : Except Json.Fault (Option μ) :=
  match Json.loads depth (extractJson α response) with
  | .ok data => modelValidate data
  | .error .jsonDecodeError => .ok none
  | .error (.fault fault) => .error fault

/-- mirrors src/agents/_llm_json.py:19-22 -/
def retryHint : Text :=
  "\n\nПредыдущий ответ не был валидным JSON ожидаемой структуры. Верни строго корректный JSON без markdown и пояснений.".toList

/-! ## Closed fences -/

/-- The text has two fences, one after the other. -/
def Closed (text : Text) : Prop := ∃ a b c, text = a ++ (fence ++ (b ++ (fence ++ c)))

theorem closed_iff {text : Text} :
    Closed text ↔ ∃ i k, find fence text = some i ∧ find fence (text.drop (i + 3)) = some k := by
  constructor
  · rintro ⟨a, b, c, rfl⟩
    have hfirst : fence <+: (a ++ (fence ++ (b ++ (fence ++ c)))).drop a.length := by
      rw [List.drop_left]; exact List.prefix_append _ _
    obtain ⟨i, hle, hi⟩ := find_le hfirst
    -- the first fence is not behind `a`, so the second one is still to come
    have hsecond : fence <+: ((a ++ (fence ++ (b ++ (fence ++ c)))).drop (i + 3)).drop (a.length - i + b.length) := by
      rw [List.drop_drop, show i + 3 + (a.length - i + b.length) = a.length + (3 + b.length) by omega,
        ← List.drop_drop, List.drop_left, ← List.drop_drop, show 3 = fence.length from rfl, List.drop_left,
        List.drop_left]
      exact List.prefix_append _ _
    obtain ⟨k, -, hk⟩ := find_le hsecond
    exact ⟨i, k, hi, hk⟩
  · rintro ⟨i, k, hi, hk⟩
    obtain ⟨t, ht⟩ := find_prefix hi
    obtain ⟨u, hu⟩ := find_prefix hk
    have hdrop : text.drop (i + 3) = t := by
      rw [← List.drop_drop, ← ht, show 3 = fence.length from rfl, List.drop_left]
    refine ⟨text.take i, t.take k, u, ?_⟩
    rw [hdrop] at hu
    rw [hu, List.take_append_drop, ht, List.take_append_drop]

theorem closed_reverse {text : Text} (h : Closed text) : Closed text.reverse := by
  obtain ⟨a, b, c, rfl⟩ := h
  refine ⟨c.reverse, b.reverse, a.reverse, ?_⟩
  simp [fence]

theorem closed_append_left {x y : Text} (hx : backtick ∉ x) : Closed (x ++ y) ↔ Closed y := by
  constructor
  · intro h
    induction x with
    | nil => exact h
    | cons c x ih =>
      rw [List.mem_cons, not_or] at hx
      obtain ⟨a, b, d, he⟩ := h
      cases a with
      | nil => exact absurd (List.cons.inj he).1 (Ne.symm hx.1)
      | cons a0 a => exact ih hx.2 ⟨a, b, d, (List.cons.inj he).2⟩
  · rintro ⟨a, b, c, rfl⟩
    exact ⟨x ++ a, b, c, by simp⟩

theorem closed_append_right {x y : Text} (hy : backtick ∉ y) : Closed (x ++ y) ↔ Closed x := by
  have hrev : ∀ {t : Text}, Closed t.reverse → Closed t := fun h => by simpa using closed_reverse h
  constructor
  · intro h
    have := closed_reverse h
    rw [List.reverse_append, closed_append_left (by simpa using hy)] at this
    exact hrev this
  · rintro ⟨a, b, c, rfl⟩
    exact ⟨a, b, c ++ y, by simp⟩

theorem unfence_open (α : Alphabet) {text : Text} (h : ¬ Closed text) : unfence α text = text := by
  unfold unfence
  cases hi : find fence text with
  | none => rfl
  | some i =>
    cases hk : find fence (text.drop (i + 3)) with
    | none => simp only [hk]
    | some k => exact absurd (closed_iff.mpr ⟨i, k, hi, hk⟩) h

/-! ## What comes out has no fence -/

theorem outermost_isInfix (text : Text) : outermost text <:+: text := by
  unfold outermost
  split
  · split
    · exact (List.drop_suffix _ _).isInfix.trans (List.take_prefix _ _).isInfix
    · exact List.infix_rfl
  · exact List.infix_rfl

theorem dropTag_isInfix (α : Alphabet) (inner : Text) : dropTag α inner <:+: inner := by
  unfold dropTag
  split
  · split
    · exact (List.drop_suffix _ _).isInfix
    · exact List.infix_rfl
  · exact List.infix_rfl

theorem extractJson_closed (α : Alphabet) {response : Text} (h : Closed (strip response)) :
    ¬ fence <:+: extractJson α response := by
  obtain ⟨i, k, hi, hk⟩ := closed_iff.mp h
  have htake : ¬ fence <:+: ((strip response).drop (i + 3)).take k := find_take (by decide) hk
  have hin : extractJson α response <:+: ((strip response).drop (i + 3)).take k := by
    simp only [extractJson, unfence, hi, hk]
    exact (outermost_isInfix _).trans ((strip_isInfix _).trans ((dropTag_isInfix α _).trans (strip_isInfix _)))
  exact fun hf => htake (hf.trans hin)

/-! ## What comes out is the JSON -/

/-- The text runs from an opening to a closing brace, as that of an object does. -/
def Braced (j : Text) : Prop := ∃ body, j = '{' :: (body ++ ['}'])

theorem braced_dumps (items : List (Text × Json)) : Braced (Json.dumps (.obj items)) := ⟨_, by rw [Json.dumps]⟩

theorem Braced.trimmed {j : Text} (h : Braced j) : Trimmed j := by
  obtain ⟨body, rfl⟩ := h
  exact ⟨⟨'{', body ++ ['}'], rfl, by decide⟩, ⟨'{' :: body, '}', rfl, by decide⟩⟩

theorem outermost_braced {j : Text} (h : Braced j) {before after : Text} (hb : '{' ∉ before) (ha : '}' ∉ after) :
    outermost (before ++ (j ++ after)) = j := by
  obtain ⟨body, rfl⟩ := h
  have hopen : find ['{'] (before ++ ('{' :: (body ++ ['}']) ++ after)) = some before.length := by
    rw [List.cons_append]
    exact find_char _ hb
  have hassoc : before ++ ('{' :: (body ++ ['}']) ++ after) = (before ++ '{' :: body) ++ '}' :: after := by simp
  have hclose : rfind '}' (before ++ ('{' :: (body ++ ['}']) ++ after)) = some (before ++ '{' :: body).length := by
    rw [hassoc]
    exact rfind_char _ ha
  have htake : ((before ++ ('{' :: (body ++ ['}']) ++ after)).take ((before ++ '{' :: body).length + 1)).drop
      before.length = '{' :: (body ++ ['}']) := by
    have hsplit : before ++ ('{' :: (body ++ ['}']) ++ after) = (before ++ '{' :: (body ++ ['}'])) ++ after := by simp
    have hlen : (before ++ '{' :: body).length + 1 = (before ++ '{' :: (body ++ ['}'])).length := by
      simp only [List.length_append, List.length_cons, List.length_nil]; omega
    rw [hsplit, hlen, List.take_left, List.drop_left]
  unfold outermost
  rw [hopen, hclose]
  simp only [htake]
  exact if_pos (by simp only [List.length_append, List.length_cons]; omega)

/-- Prose has neither braces nor backticks. -/
def Prose : Type := {text : Text // ∀ c ∈ text, c ≠ '{' ∧ c ≠ '}' ∧ c ≠ backtick}

def Blank : Type := {text : Text // ∀ c ∈ text, isSpace c = true}

theorem plain_of_isSpace {c : Char} (h : isSpace c = true) : c ≠ '{' ∧ c ≠ '}' ∧ c ≠ backtick := by
  refine ⟨?_, ?_, ?_⟩ <;> rintro rfl <;> revert h <;> decide

def Blank.prose (b : Blank) : Prose := ⟨b.1, fun c hc => plain_of_isSpace (b.2 c hc)⟩

theorem Prose.backtick_not_mem (p : Prose) : backtick ∉ p.1 := fun h => (p.2 _ h).2.2 rfl

theorem Blank.backtick_not_mem (b : Blank) : backtick ∉ b.1 := b.prose.backtick_not_mem

/-- Stripping the outside of some prose leaves prose. -/
theorem Prose.of_isInfix (p : Prose) {text : Text} (h : text <:+: p.1) :
    '{' ∉ text ∧ '}' ∉ text ∧ backtick ∉ text :=
  ⟨fun hc => (p.2 _ (h.subset hc)).1 rfl, fun hc => (p.2 _ (h.subset hc)).2.1 rfl,
    fun hc => (p.2 _ (h.subset hc)).2.2 rfl⟩

theorem strip_prose {text : Text} (h : Trimmed text) (before after : Prose) :
    ∃ b a, strip (before.1 ++ (text ++ after.1)) = b ++ (text ++ a) ∧ b <:+: before.1 ∧ a <:+: after.1 :=
  ⟨_, _, strip_append h _ _, (List.dropWhile_suffix isSpace).isInfix, (List.rdropWhile_prefix isSpace _).isInfix⟩

theorem closed_prose {j : Text} (h : Braced j) (before after : Prose) :
    Closed (strip (before.1 ++ (j ++ after.1))) ↔ Closed j := by
  obtain ⟨b, a, hstrip, hb, ha⟩ := strip_prose h.trimmed before after
  rw [hstrip, closed_append_left (before.of_isInfix hb).2.2, closed_append_right (after.of_isInfix ha).2.2]

/-- Without two fences the braces alone decide. -/
theorem extractJson_open (α : Alphabet) {j : Text} (h : Braced j) (before after : Prose) (hopen : ¬ Closed j) :
    extractJson α (before.1 ++ (j ++ after.1)) = j := by
  rw [extractJson, unfence_open α fun hc => hopen ((closed_prose h before after).mp hc)]
  obtain ⟨b, a, hstrip, hb, ha⟩ := strip_prose h.trimmed before after
  rw [hstrip]
  exact outermost_braced h (before.of_isInfix hb).1 (after.of_isInfix ha).2.1

/-! ## A closed fence -/

/-- The opening line of a fence, behind the backticks: a language tag with blanks around it. -/
structure Tag (α : Alphabet) where
  pad : Blank
  name : Text
  pad' : Blank
  alpha : α.isalpha name = true
  inline : '\n' ∉ pad'.1

variable {α : Alphabet}

def Tag.line (tag : Tag α) : Text := tag.pad.1 ++ (tag.name ++ (tag.pad'.1 ++ ['\n']))

/-- The line, or nothing where there is no tag. -/
def openingLine : Option (Tag α) → Text
  | some tag => tag.line
  | none => []

theorem not_isSpace_of_isAlpha {c : Char} (h : α.isAlpha c = true) : isSpace c = false := by
  by_contra hs
  rw [Bool.not_eq_false] at hs
  rw [α.space c hs] at h
  cases h

theorem forall_isAlpha {text : Text} (h : α.isalpha text = true) : text ≠ [] ∧ ∀ c ∈ text, α.isAlpha c = true := by
  simpa [Alphabet.isalpha] using h

theorem trimmed_of_isalpha {text : Text} (h : α.isalpha text = true) : Trimmed text := by
  obtain ⟨hne, hall⟩ := forall_isAlpha h
  constructor
  · obtain ⟨x, rest, rfl⟩ := List.exists_cons_of_ne_nil hne
    exact ⟨x, rest, rfl, not_isSpace_of_isAlpha (hall x (by simp))⟩
  · obtain ⟨rest, x, rfl⟩ := List.eq_nil_or_concat' text |>.resolve_left hne
    exact ⟨rest, x, rfl, not_isSpace_of_isAlpha (hall x (by simp))⟩

/-- The first line of a braced text is no tag. -/
theorem dropTag_braced {j : Text} (h : Braced j) : dropTag α j = j := by
  obtain ⟨body, rfl⟩ := h
  unfold dropTag
  cases hn : find ['\n'] ('{' :: (body ++ ['}'])) with
  | none => rfl
  | some n =>
    have hnot : α.isalpha (strip (('{' :: (body ++ ['}'])).take n)) = false := by
      cases n with
      | zero => rfl
      | succ n =>
        -- the brace stays at the front
        have hbrace : Trimmed ['{'] := ⟨⟨'{', [], rfl, by decide⟩, ⟨[], '{', rfl, by decide⟩⟩
        have hstrip := strip_append hbrace [] ((body ++ ['}']).take n)
        rw [List.nil_append, List.dropWhile_nil, List.nil_append] at hstrip
        rw [List.take_succ_cons, ← List.singleton_append, hstrip]
        by_contra hyes
        rw [Bool.not_eq_false] at hyes
        have hbrace := (forall_isAlpha hyes).2 '{' (by simp)
        rw [α.brace] at hbrace
        cases hbrace
    simp only [hnot]
    rfl

theorem Tag.newline_not_mem (tag : Tag α) : '\n' ∉ tag.name ++ tag.pad'.1 := by
  intro h
  rcases List.mem_append.mp h with h | h
  · have := not_isSpace_of_isAlpha ((forall_isAlpha tag.alpha).2 _ h)
    revert this; decide
  · exact tag.inline h

/-- A tag is removed with the line it stands on. -/
theorem dropTag_line (tag : Tag α) (rest : Text) : dropTag α ((tag.name ++ tag.pad'.1) ++ '\n' :: rest) = rest := by
  have hname : strip (tag.name ++ tag.pad'.1) = tag.name :=
    strip_blank (trimmed_of_isalpha tag.alpha) (List.forall_mem_nil _) tag.pad'.2
  have hdrop : ((tag.name ++ tag.pad'.1) ++ '\n' :: rest).drop ((tag.name ++ tag.pad'.1).length + 1) = rest := by
    rw [← List.drop_drop, List.drop_left]
    rfl
  simp only [dropTag, find_char rest tag.newline_not_mem, List.take_left, hname, tag.alpha, hdrop, if_true]

/-- What is left of the inside of a fence. -/
theorem inside_fence {j : Text} (h : Braced j) (tag : Option (Tag α)) (gap gap' : Blank) :
    strip (dropTag α (strip (openingLine tag ++ (gap.1 ++ (j ++ gap'.1))))) = j := by
  cases tag with
  | none =>
    rw [openingLine, List.nil_append, strip_blank h.trimmed gap.2 gap'.2, dropTag_braced h]
    simpa using strip_blank h.trimmed (List.forall_mem_nil _) (List.forall_mem_nil _)
  | some tag =>
    have htrim : Trimmed ((tag.name ++ tag.pad'.1) ++ '\n' :: (gap.1 ++ j)) := by
      obtain ⟨x, rest, hname, hx⟩ := (trimmed_of_isalpha tag.alpha).first
      obtain ⟨init, y, rfl, hy⟩ := h.trimmed.last
      exact ⟨⟨x, rest ++ tag.pad'.1 ++ '\n' :: (gap.1 ++ (init ++ [y])), by simp [hname], hx⟩,
        ⟨tag.name ++ tag.pad'.1 ++ '\n' :: (gap.1 ++ init), y, by simp, hy⟩⟩
    have hassoc : openingLine (some tag) ++ (gap.1 ++ (j ++ gap'.1)) =
        tag.pad.1 ++ (((tag.name ++ tag.pad'.1) ++ '\n' :: (gap.1 ++ j)) ++ gap'.1) := by
      simp [openingLine, Tag.line]
    rw [hassoc, strip_blank htrim tag.pad.2 gap'.2, dropTag_line]
    simpa using strip_blank h.trimmed gap.2 (List.forall_mem_nil _)

/-- The fences with what is between them. -/
def fenced (tag : Option (Tag α)) (gap gap' : Blank) (j : Text) : Text :=
  fence ++ ((openingLine tag ++ (gap.1 ++ (j ++ gap'.1))) ++ fence)

theorem trimmed_fenced (tag : Option (Tag α)) (gap gap' : Blank) (j : Text) : Trimmed (fenced tag gap gap' j) := by
  constructor
  · exact ⟨backtick, _, rfl, by decide⟩
  · refine ⟨fence ++ ((openingLine tag ++ (gap.1 ++ (j ++ gap'.1))) ++ [backtick, backtick]), backtick, ?_, by decide⟩
    simp [fenced, fence]

theorem closed_fenced (tag : Option (Tag α)) (gap gap' : Blank) (j : Text) (before after : Prose) :
    Closed (strip (before.1 ++ (fenced tag gap gap' j ++ after.1))) := by
  obtain ⟨b, a, hstrip, -, -⟩ := strip_prose (trimmed_fenced tag gap gap' j) before after
  rw [hstrip]
  exact ⟨b, openingLine tag ++ (gap.1 ++ (j ++ gap'.1)), a, by simp [fenced]⟩

theorem backtick_not_mem_openingLine (tag : Option (Tag α)) : backtick ∉ openingLine tag := by
  cases tag with
  | none => simp [openingLine]
  | some tag =>
    simp only [openingLine, Tag.line, List.mem_append, not_or]
    refine ⟨tag.pad.backtick_not_mem, fun h => ?_, tag.pad'.backtick_not_mem, by decide⟩
    have := (forall_isAlpha tag.alpha).2 _ h
    rw [α.backtick] at this
    cases this

/-- The inside ends before the closing fence. -/
theorem find_fence {j : Text} (h : Braced j) (hno : ¬ fence <:+: j) (tag : Option (Tag α)) (gap gap' : Blank)
    (rest : Text) : find fence ((openingLine tag ++ (gap.1 ++ (j ++ gap'.1))) ++ (fence ++ rest)) =
      some (openingLine tag ++ (gap.1 ++ (j ++ gap'.1))).length := by
  refine find_run rest ?_ fun hlast => ?_
  · rw [run_infix_append_left (backtick_not_mem_openingLine tag), run_infix_append_left gap.backtick_not_mem,
      run_infix_append_right gap'.backtick_not_mem]
    exact hno
  · obtain ⟨body, rfl⟩ := h
    have hmem : backtick ∈ '}' :: gap'.1 := by
      rw [← List.append_assoc, ← List.append_assoc,
        show (openingLine tag ++ gap.1) ++ '{' :: (body ++ ['}']) ++ gap'.1 =
          ((openingLine tag ++ gap.1) ++ '{' :: body) ++ ('}' :: gap'.1) by simp,
        List.getLast?_append_of_ne_nil _ (by simp)] at hlast
      exact List.mem_of_getLast? hlast
    rcases List.mem_cons.mp hmem with hb | hb
    · revert hb; decide
    · exact gap'.backtick_not_mem hb

/-- Without a fence of its own the JSON comes out of a closed fence. -/
theorem extractJson_fenced {j : Text} (h : Braced j) (hno : ¬ fence <:+: j) (tag : Option (Tag α)) (gap gap' : Blank)
    (before after : Prose) : extractJson α (before.1 ++ (fenced tag gap gap' j ++ after.1)) = j := by
  obtain ⟨b, a, hstrip, hb, -⟩ := strip_prose (trimmed_fenced tag gap gap' j) before after
  have hnotick := (before.of_isInfix hb).2.2
  have hopened : find fence (b ++ (fenced tag gap gap' j ++ a)) = some b.length := by
    rw [fenced, List.append_assoc]
    exact find_run _ (fun hf => hnotick (hf.subset (by decide))) fun hlast => hnotick (List.mem_of_getLast? hlast)
  have hinside : (b ++ (fenced tag gap gap' j ++ a)).drop (b.length + 3) =
      (openingLine tag ++ (gap.1 ++ (j ++ gap'.1))) ++ (fence ++ a) := by
    rw [← List.drop_drop, List.drop_left, fenced, List.append_assoc, show 3 = fence.length from rfl, List.drop_left,
      List.append_assoc]
  have hunfence : unfence α (b ++ (fenced tag gap gap' j ++ a)) = j := by
    simp only [unfence, hopened, hinside, find_fence h hno, List.take_left, inside_fence h]
  rw [extractJson, hstrip, hunfence]
  simpa using outermost_braced h List.not_mem_nil List.not_mem_nil

end MasResearch.L2
