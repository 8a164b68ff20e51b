import MasResearch.Core.Exec
import MasResearch.Core.Grouping
import MasResearch.L2Dispatch.Assembly

/-!
# The spaCy adapter (`adapters/ner.py`, `adapters/spacy_ner.py`)

`extract` runs the pipeline of a text's language on it. `extractMany` groups the texts by
language, runs `pipe` on each group and puts the results back in order. Pipelines are
loaded when they are first needed, and kept by language and by the name of the model.

* `yields_ensureNlp`: the pipeline of a language is the same after any earlier calls.
* `plainMany_ok_iff`: with the pipelines given, batching is one text after the other.
* `extractMany_batches`: the same of the adapter, whatever was called before.
-/
namespace MasResearch.L2

/-! ## Candidates -/

/-- mirrors src/adapters/ner.py:18-24 -/
structure TermCandidate where
  text : String
  «lemma» : String
  label : String := ""
  deriving DecidableEq, Repr

/-- `zip(xs, ys, strict=True)`; a loop over it that has no effect raises as it does. -/
def zipStrict {α β : Type} (xs : List α) (ys : List β) : Except PyError (List (α × β)) :=
  if ys.length < xs.length then .error (.valueError "zip() argument 2 is shorter than argument 1")
  else if xs.length < ys.length then .error (.valueError "zip() argument 2 is longer than argument 1")
  else .ok (xs.zip ys)

theorem zipStrict_ok {α β : Type} {xs : List α} {ys : List β} (h : ys.length = xs.length) :
    zipStrict xs ys = .ok (xs.zip ys) := by
  rw [zipStrict, if_neg (by omega), if_neg (by omega)]

namespace Spacy

/-! ## Languages -/

inductive Language where
  | ru
  | en
  deriving DecidableEq, Repr

/-- mirrors src/adapters/spacy_ner.py:48-50 -/
def isCyrillic (ch : Char) : Bool := 0x0400 ≤ ch.toNat ∧ ch.toNat ≤ 0x04FF

/-- mirrors src/adapters/spacy_ner.py:53-55 -/
def isLatin (ch : Char) : Bool := 0x0041 ≤ ch.toNat ∧ ch.toNat ≤ 0x005A ∨ 0x0061 ≤ ch.toNat ∧ ch.toNat ≤ 0x007A

/-- The body of the loop, on the counts of Latin and of Cyrillic letters. -/
def countLetter (counts : Nat × Nat) (ch : Char) : Nat × Nat :=
  if isLatin ch then (counts.1 + 1, counts.2)
  else if isCyrillic ch then (counts.1, counts.2 + 1)
  else counts

/-- mirrors src/adapters/spacy_ner.py:67-77 -/
def selectLanguage (text : String) : Language :=
  let counts := text.toList.foldl countLetter (0, 0)
  if counts.2 < counts.1 then .en else .ru

example : selectLanguage "ABаб" = .ru ∧ selectLanguage "Hello world Ал" = .en := by decide

/-! ## Documents -/

/-- What is read of a named entity. -/
structure Entity where
  text : String
  «lemma» : String
  label : String

/-- What is read of a token; a missing `pos_` is empty. -/
structure Token where
  text : String
  «lemma» : String
  pos : String

structure Doc where
  ents : List Entity
  tokens : List Token

/-- An `OSError`, or what else `spacy.load` raises. -/
inductive LoadError where
  | osError
  | other (error : PyError)

def LoadError.raised : LoadError → PyError
  | .osError => .external
  | .other error => error

/-- The `spacy` package, with pipelines of type `P`. -/
structure Package (P : Type) where
  imported : Except PyError Unit
  load : String → Except LoadError P
  nlp : P → String → Except PyError Doc
  pipe : P → List String → Except PyError (List Doc)

/-- `pipe` gives the documents that the pipeline gives for the texts one by one. -/
def Package.Pipes {P : Type} (package : Package P) : Prop := ∀ nlp texts docs,
  package.pipe nlp texts = .ok docs ↔ List.Forall₂ (fun text doc => package.nlp nlp text = .ok doc) texts docs

/-- What the adapter is made with.
mirrors src/adapters/spacy_ner.py:61-63 -/
structure SpacyNerAdapter where
  modelName : String := "ru_core_news_lg"
  enModelName : String := "en_core_web_sm"

/-- mirrors src/adapters/spacy_ner.py:64-65 -/
structure Loaded (P : Type) where
  pipelines : Dict Language P := ∅
  byModel : Dict String P := ∅

section

variable {P : Type} (lower : String → String) (package : Package P) (adapter : SpacyNerAdapter)

/-! ## The adapter -/

def SpacyNerAdapter.preferred : Language → String
  | .en => adapter.enModelName
  | .ru => adapter.modelName

def SpacyNerAdapter.fallback : Language → String
  | .en => adapter.modelName
  | .ru => adapter.enModelName

/-- `self._by_model[name] = pipeline`, and the pipeline. -/
def keepModel (name : String) (pipeline : P) : Exec (Loaded P) PyError P := do
  Exec.modify fun loaded => { loaded with byModel := loaded.byModel.set name pipeline }
  return pipeline

/-- mirrors src/adapters/spacy_ner.py:86-111 -/
def loadModel (preferred fallback : String) : Exec (Loaded P) PyError P := do
  Exec.lift package.imported
  let loaded ← Exec.get
  match loaded.byModel.get? preferred with
  | some pipeline => return pipeline
  | none => match package.load preferred with
    | .ok pipeline => keepModel preferred pipeline
    | .error (.other error) => Exec.raise error
    | .error .osError =>
      if fallback = preferred then Exec.raise .external
      else match loaded.byModel.get? fallback with
        | some pipeline => return pipeline
        | none => match package.load fallback with
          | .ok pipeline => keepModel fallback pipeline
          | .error error => Exec.raise error.raised

/-- mirrors src/adapters/spacy_ner.py:79-84 -/
def ensureNlp (language : Language) : Exec (Loaded P) PyError P := do
  let loaded ← Exec.get
  match loaded.pipelines.get? language with
  | some pipeline => return pipeline
  | none => do
    let pipeline ← loadModel package (adapter.preferred language) (adapter.fallback language)
    Exec.modify fun loaded => { loaded with pipelines := loaded.pipelines.set language pipeline }
    return pipeline

/-- mirrors src/adapters/spacy_ner.py:165-173 -/
def adjNounBigrams (doc : Doc) : List TermCandidate :=
  let pairs := (doc.tokens.zip doc.tokens.tail).filter fun (left, right) => left.pos = "ADJ" ∧ right.pos = "NOUN"
  pairs.map fun (left, right) =>
    { text := left.text ++ " " ++ right.text
      «lemma» := lower left.lemma ++ " " ++ lower right.lemma }

/-- mirrors src/adapters/spacy_ner.py:121-125 -/
def candidatesOf (doc : Doc) : List TermCandidate :=
  (doc.ents.map fun ent => { text := ent.text, «lemma» := lower ent.lemma, label := ent.label }) ++
    adjNounBigrams lower doc

/-- mirrors src/adapters/spacy_ner.py:113-125 -/
def extract (text : String) : Exec (Loaded P) PyError (List TermCandidate) := do
  let nlp ← ensureNlp package adapter (selectLanguage text)
  let doc ← Exec.lift (package.nlp nlp text)
  return candidatesOf lower doc

/-- mirrors src/adapters/spacy_ner.py:138-140 -/
def langGroups (texts : List String) : Dict Language (List Nat) := indicesBy selectLanguage texts

/-- `texts[i]`, every index of a group being one of `texts`. -/
def textAt (texts : List String) (i : Nat) : String := texts.getD i ""

/-- What is done with the documents of a group: `results[idx] = candidates` for each. -/
def storeDocs (results : List (List TermCandidate)) (pairs : List (Nat × Doc)) : List (List TermCandidate) :=
  pairs.foldl (fun results pair => results.set pair.1 (candidatesOf lower pair.2)) results

/-- The body of the loop over the groups.
mirrors src/adapters/spacy_ner.py:144-161 -/
def runGroup (texts : List String) (results : List (List TermCandidate)) (group : Language × List Nat) :
    Exec (Loaded P) PyError (List (List TermCandidate)) := do
  let nlp ← ensureNlp package adapter group.1
  let docs ← Exec.lift (package.pipe nlp (group.2.map (textAt texts)))
  let pairs ← Exec.lift (zipStrict group.2 docs)
  return storeDocs lower results pairs

/-- mirrors src/adapters/spacy_ner.py:127-163 -/
def extractMany (texts : List String) : Exec (Loaded P) PyError (List (List TermCandidate)) :=
  if texts = [] then return []
  else (langGroups texts).entries.foldlM (runGroup lower package adapter texts) (texts.map fun _ => [])

/-! ## Without the caches -/

def resolveModel (preferred fallback : String) : Except PyError P := do
  package.imported
  match package.load preferred with
  | .ok pipeline => return pipeline
  | .error (.other error) => throw error
  | .error .osError =>
    if fallback = preferred then throw .external
    else (package.load fallback).mapError LoadError.raised

/-- The pipeline of a language. -/
def resolve (language : Language) : Except PyError P :=
  resolveModel package (adapter.preferred language) (adapter.fallback language)

def plainExtract (text : String) : Except PyError (List TermCandidate) := do
  let nlp ← resolve package adapter (selectLanguage text)
  let doc ← package.nlp nlp text
  return candidatesOf lower doc

def plainGroup (texts : List String) (results : List (List TermCandidate)) (group : Language × List Nat) :
    Except PyError (List (List TermCandidate)) := do
  let nlp ← resolve package adapter group.1
  let docs ← package.pipe nlp (group.2.map (textAt texts))
  let pairs ← zipStrict group.2 docs
  return storeDocs lower results pairs

def plainMany (texts : List String) : Except PyError (List (List TermCandidate)) :=
  (langGroups texts).entries.foldlM (plainGroup lower package adapter texts) (texts.map fun _ => [])

/-- What is kept is what loading would give. -/
structure Loaded.Resolves (loaded : Loaded P) : Prop where
  byModel : ∀ {name pipeline}, loaded.byModel.get? name = some pipeline → package.load name = .ok pipeline
  pipelines : ∀ {language pipeline}, loaded.pipelines.get? language = some pipeline →
    resolve package adapter language = .ok pipeline

end

section

variable {P : Type} {lower : String → String} {package : Package P} {adapter : SpacyNerAdapter}

theorem resolves_start : (Loaded.mk ∅ ∅ : Loaded P).Resolves package adapter := by
  constructor <;> simp

theorem Loaded.Resolves.keepModel {loaded : Loaded P} (h : loaded.Resolves package adapter) {name : String}
    {pipeline : P} (hload : package.load name = .ok pipeline) :
    ({ loaded with byModel := loaded.byModel.set name pipeline } : Loaded P).Resolves package adapter where
  byModel {name' pipeline'} hget := by
    rw [Dict.get?_set] at hget
    split at hget
    · rename_i he
      rw [he, hload, Option.some.inj hget]
    · exact h.byModel hget
  pipelines := h.pipelines

theorem Loaded.Resolves.keepPipeline {loaded : Loaded P} (h : loaded.Resolves package adapter) {language : Language}
    {pipeline : P} (hresolve : resolve package adapter language = .ok pipeline) :
    ({ loaded with pipelines := loaded.pipelines.set language pipeline } : Loaded P).Resolves package adapter where
  byModel := h.byModel
  pipelines {language' pipeline'} hget := by
    rw [Dict.get?_set] at hget
    split at hget
    · rename_i he
      rw [he, hresolve, Option.some.inj hget]
    · exact h.pipelines hget

theorem yields_keepModel {name : String} {pipeline : P} (hload : package.load name = .ok pipeline) :
    Exec.Yields (Loaded.Resolves package adapter) (Spacy.keepModel name pipeline) (.ok pipeline) :=
  fun _ hs => ⟨rfl, hs.keepModel hload⟩

theorem yields_loadModel (preferred fallback : String) :
    Exec.Yields (Loaded.Resolves package adapter) (loadModel package preferred fallback)
      (resolveModel package preferred fallback) := by
  refine (Exec.Yields.lift package.imported).bind fun _ => ?_
  intro s hs
  rw [Exec.run_bind, Exec.run_get]
  dsimp only
  cases hpre : s.byModel.get? preferred with
  | some pipeline =>
    rw [hs.byModel hpre]
    exact ⟨rfl, hs⟩
  | none =>
    cases hload : package.load preferred with
    | ok pipeline => exact yields_keepModel hload s hs
    | error error =>
      cases error with
      | other error => exact ⟨rfl, hs⟩
      | osError =>
        by_cases he : fallback = preferred
        · simp only [if_pos he]
          exact ⟨rfl, hs⟩
        · simp only [if_neg he]
          cases hfall : s.byModel.get? fallback with
          | some pipeline =>
            rw [hs.byModel hfall]
            exact ⟨rfl, hs⟩
          | none =>
            cases hload' : package.load fallback with
            | ok pipeline => exact yields_keepModel hload' s hs
            | error error => exact ⟨rfl, hs⟩

theorem yields_ensureNlp (language : Language) :
    Exec.Yields (Loaded.Resolves package adapter) (ensureNlp package adapter language)
      (resolve package adapter language) := by
  intro s hs
  rw [ensureNlp, Exec.run_bind, Exec.run_get]
  dsimp only
  cases hget : s.pipelines.get? language with
  | some pipeline =>
    rw [hs.pipelines hget]
    exact ⟨rfl, hs⟩
  | none =>
    have hyields : Exec.Yields (Loaded.Resolves package adapter) _ _ :=
      yields_loadModel (adapter.preferred language) (adapter.fallback language)
    obtain ⟨hload, hs'⟩ := hyields s hs
    dsimp only
    rw [Exec.run_bind]
    generalize (loadModel package (adapter.preferred language) (adapter.fallback language)).run s = y at hload hs'
    obtain ⟨error | pipeline, s'⟩ := y
    · exact ⟨hload, hs'⟩
    · exact ⟨hload, hs'.keepPipeline hload.symm⟩

theorem yields_extract (text : String) :
    Exec.Yields (Loaded.Resolves package adapter) (extract lower package adapter text)
      (plainExtract lower package adapter text) :=
  (yields_ensureNlp _).bind fun nlp => (Exec.Yields.lift (package.nlp nlp text)).bind fun _ => .pure _

theorem yields_runGroup (texts : List String) (results : List (List TermCandidate)) (group : Language × List Nat) :
    Exec.Yields (Loaded.Resolves package adapter) (runGroup lower package adapter texts results group)
      (plainGroup lower package adapter texts results group) :=
  (yields_ensureNlp _).bind fun nlp => (Exec.Yields.lift (package.pipe nlp _)).bind fun docs =>
    (Exec.Yields.lift (zipStrict group.2 docs)).bind fun _ => .pure _

theorem yields_extractMany (texts : List String) :
    Exec.Yields (Loaded.Resolves package adapter) (extractMany lower package adapter texts)
      (plainMany lower package adapter texts) := by
  unfold extractMany plainMany
  split
  · rename_i hnil
    rw [hnil]
    exact .pure []
  · exact Exec.Yields.foldlM (fun results group => yields_runGroup texts results group) _ _

/-! ## Batching without the caches -/

section

variable {texts : List String} {results : List (List TermCandidate)} {language : Language} {indices : List Nat}

theorem plainExtract_ok_iff {text : String} {found : List TermCandidate} :
    plainExtract lower package adapter text = .ok found ↔
      ∃ nlp doc, resolve package adapter (selectLanguage text) = .ok nlp ∧ package.nlp nlp text = .ok doc ∧
        candidatesOf lower doc = found := by
  unfold plainExtract
  simp only [bind_ok_iff, pure, Except.pure, Except.ok.injEq, ← exists_and_left]

theorem storeDocs_zip {answer : Nat → List TermCandidate} {docs : List Doc} :
    List.Forall₂ (fun i doc => candidatesOf lower doc = answer i) indices docs →
      storeDocs lower results (indices.zip docs) = scatter answer indices results := by
  intro h
  induction h generalizing results with
  | nil => rfl
  | cons hdoc _ ih =>
    rw [List.zip_cons_cons, storeDocs, List.foldl_cons, ← storeDocs, ih, hdoc]
    rfl

/-- A group all of whose texts succeed alone succeeds, and stores their results. -/
theorem plainGroup_ok (hpipe : package.Pipes) {answer : Nat → List TermCandidate} (hne : indices ≠ [])
    (hlanguage : ∀ i ∈ indices, selectLanguage (textAt texts i) = language)
    (h : ∀ i ∈ indices, plainExtract lower package adapter (textAt texts i) = .ok (answer i)) :
    plainGroup lower package adapter texts results (language, indices) = .ok (scatter answer indices results) := by
  obtain ⟨first, hfirst⟩ := List.exists_mem_of_ne_nil _ hne
  obtain ⟨nlp, -, hnlp, -, -⟩ := plainExtract_ok_iff.mp (h first hfirst)
  rw [hlanguage first hfirst] at hnlp
  have hdoc : ∀ i ∈ indices, ∃ doc, package.nlp nlp (textAt texts i) = .ok doc ∧ candidatesOf lower doc = answer i := by
    intro i hi
    obtain ⟨nlp', doc, hnlp', hdoc, hanswer⟩ := plainExtract_ok_iff.mp (h i hi)
    rw [hlanguage i hi, hnlp] at hnlp'
    cases hnlp'
    exact ⟨doc, hdoc, hanswer⟩
  obtain ⟨docs, hdocs⟩ := exists_forall₂_iff.mpr hdoc
  have hdocs' : package.pipe nlp (indices.map (textAt texts)) = .ok docs :=
    (hpipe _ _ _).mpr (List.forall₂_map_left_iff.mpr (hdocs.imp fun _ _ hd => hd.1))
  unfold plainGroup
  simp only [bind_ok_iff]
  exact ⟨nlp, hnlp, docs, hdocs', _, zipStrict_ok hdocs.length_eq.symm,
    congrArg Except.ok (storeDocs_zip (hdocs.imp fun _ _ hd => hd.2))⟩

theorem ok_of_plainGroup (hpipe : package.Pipes)
    (hlanguage : ∀ i ∈ indices, selectLanguage (textAt texts i) = language) {results' : List (List TermCandidate)}
    (h : plainGroup lower package adapter texts results (language, indices) = .ok results') :
    ∀ i ∈ indices, ∃ found, plainExtract lower package adapter (textAt texts i) = .ok found := by
  obtain ⟨nlp, hnlp, h⟩ := bind_ok_iff.mp h
  obtain ⟨docs, hdocs, -⟩ := bind_ok_iff.mp h
  have hall := exists_forall₂_iff.mp ⟨docs, List.forall₂_map_left_iff.mp ((hpipe _ _ _).mp hdocs)⟩
  intro i hi
  obtain ⟨doc, hdoc⟩ := hall i hi
  exact ⟨_, plainExtract_ok_iff.mpr ⟨nlp, doc, by rw [hlanguage i hi]; exact hnlp, hdoc, rfl⟩⟩

theorem textAt_of_getElem? {i : Nat} {text : String} (h : texts[i]? = some text) : textAt texts i = text := by
  rw [textAt, List.getD_eq_getElem?_getD, h, Option.getD_some]

/-- A group has texts of its language only. -/
theorem mem_langGroups {group : Language × List Nat} (h : group ∈ (langGroups texts).entries) :
    group.2 ≠ [] ∧ ∀ i ∈ group.2, selectLanguage (textAt texts i) = group.1 := by
  obtain ⟨hne, hmem⟩ := mem_indicesBy (Dict.get?_eq_some.mpr h)
  refine ⟨hne, fun i hi => ?_⟩
  obtain ⟨text, htext, hlanguage⟩ := (hmem i).mp hi
  rwa [textAt_of_getElem? htext]

/-- Every text is in a group. -/
theorem exists_langGroup {text : String} (h : text ∈ texts) :
    ∃ group ∈ (langGroups texts).entries, ∃ i ∈ group.2, textAt texts i = text := by
  obtain ⟨i, hi⟩ := List.mem_iff_getElem?.mp h
  have hin : i ∈ (langGroups texts).values.flatten :=
    mem_flatten_indicesBy.mpr (List.getElem?_eq_some_iff.mp hi).1
  obtain ⟨is, his, hmem⟩ := List.mem_flatten.mp hin
  obtain ⟨group, hgroup, rfl⟩ := List.mem_map.mp his
  exact ⟨group, hgroup, i, hmem, textAt_of_getElem? hi⟩

theorem plainMany_ok (hpipe : package.Pipes) {answer : String → List TermCandidate}
    (h : ∀ text ∈ texts, plainExtract lower package adapter text = .ok (answer text)) :
    plainMany lower package adapter texts = .ok (texts.map answer) := by
  have hgroup : ∀ (results : List (List TermCandidate)), ∀ group ∈ (langGroups texts).entries,
      plainGroup lower package adapter texts results group =
        .ok (scatter (fun i => answer (textAt texts i)) group.2 results) := by
    intro results group hg
    refine plainGroup_ok hpipe (mem_langGroups hg).1 (mem_langGroups hg).2 fun i hi => h _ ?_
    obtain ⟨text, htext, -⟩ := ((mem_indicesBy (Dict.get?_eq_some.mpr hg)).2 i).mp hi
    rw [textAt_of_getElem? htext]
    exact List.mem_of_getElem? htext
  have hloop : (langGroups texts).entries.foldl
      (fun results group => scatter (fun i => answer (textAt texts i)) group.2 results) (texts.map fun _ => []) =
      scatter (fun i => answer (textAt texts i)) (langGroups texts).values.flatten (texts.map fun _ => []) := by
    rw [scatter, List.foldl_flatten, Dict.values, List.foldl_map]
    rfl
  rw [plainMany, foldlM_ok hgroup, hloop]
  exact congrArg _ (scatter_indicesBy (List.length_map _) fun i text ht => by rw [textAt_of_getElem? ht])

theorem plainMany_ok_iff (hpipe : package.Pipes) {results : List (List TermCandidate)} :
    plainMany lower package adapter texts = .ok results ↔
      List.Forall₂ (fun text found => plainExtract lower package adapter text = .ok found) texts results := by
  have hall : (∀ text ∈ texts, ∃ found, plainExtract lower package adapter text = .ok found) →
      (plainMany lower package adapter texts = .ok results ↔
        List.Forall₂ (fun text found => plainExtract lower package adapter text = .ok found) texts results) := by
    intro h
    choose! answer hanswer using h
    rw [plainMany_ok hpipe hanswer, ← mapM_ok_iff, mapM_ok hanswer]
  constructor
  · intro h
    refine (hall fun text ht => ?_).mp h
    obtain ⟨group, hg, i, hi, rfl⟩ := exists_langGroup ht
    obtain ⟨t, t', hstep⟩ := forall_ok_of_foldlM h group hg
    exact ok_of_plainGroup hpipe (mem_langGroups hg).2 hstep i hi
  · intro h
    exact (hall (exists_forall₂_iff.mp ⟨results, h⟩)).mpr h

end

/-! ## Batching after any earlier calls -/

end

section

variable {P : Type} (lower : String → String) (package : Package P) (adapter : SpacyNerAdapter)

inductive Call where
  | extract (text : String)
  | extractMany (texts : List String)

/-- The caches after a call, whether it returned or raised. -/
def Loaded.after (loaded : Loaded P) : Call → Loaded P
  | .extract text => ((extract lower package adapter text).run loaded).2
  | .extractMany texts => ((extractMany lower package adapter texts).run loaded).2

def afterCalls (calls : List Call) : Loaded P := calls.foldl (Loaded.after lower package adapter) {}

theorem resolves_after {loaded : Loaded P} (h : loaded.Resolves package adapter) (call : Call) :
    (loaded.after lower package adapter call).Resolves package adapter := by
  cases call with
  | extract text => exact (yields_extract text loaded h).2
  | extractMany texts => exact (yields_extractMany texts loaded h).2

theorem resolves_afterCalls (calls : List Call) :
    (afterCalls lower package adapter calls).Resolves package adapter := by
  have hrun : ∀ (calls : List Call) {loaded : Loaded P}, loaded.Resolves package adapter →
      (calls.foldl (Loaded.after lower package adapter) loaded).Resolves package adapter := by
    intro calls
    induction calls with
    | nil => exact fun h => h
    | cons call calls ih => exact fun h => ih (resolves_after lower package adapter h call)
  exact hrun calls resolves_start

/-- After any calls, batching succeeds exactly when each text alone does, and gives what
they give. -/
theorem extractMany_batches (hpipe : package.Pipes) (earlier others : List Call) (texts : List String) :
    ((∃ results, ((extractMany lower package adapter texts).run (afterCalls lower package adapter earlier)).1 =
        .ok results) ↔
      ∀ text ∈ texts, ∃ found,
        ((extract lower package adapter text).run (afterCalls lower package adapter others)).1 = .ok found) ∧
    ∀ results, ((extractMany lower package adapter texts).run (afterCalls lower package adapter earlier)).1 =
        .ok results →
      List.Forall₂ (fun text found =>
        ((extract lower package adapter text).run (afterCalls lower package adapter others)).1 = .ok found)
        texts results := by
  have hplain : ∀ text, ((extract lower package adapter text).run (afterCalls lower package adapter others)).1 =
      plainExtract lower package adapter text := fun text =>
    (yields_extract text _ (resolves_afterCalls lower package adapter others)).1
  have hmany : ∀ results,
      ((extractMany lower package adapter texts).run (afterCalls lower package adapter earlier)).1 = .ok results ↔
        List.Forall₂ (fun text found =>
        ((extract lower package adapter text).run (afterCalls lower package adapter others)).1 = .ok found)
        texts results := by
    intro results
    rw [(yields_extractMany texts _ (resolves_afterCalls lower package adapter earlier)).1, plainMany_ok_iff hpipe]
    simp only [hplain]
  exact ⟨(exists_congr hmany).trans exists_forall₂_iff, fun results => (hmany results).mp⟩

/-- Only the Russian model is installed; a pipeline labels the whole text with its model. -/
def onlyRu : Package String where
  imported := .ok ()
  load name := if name = "ru_core_news_lg" then .ok name else .error .osError
  nlp name text := if text = "" then .error .external else .ok ⟨[⟨text, text, name⟩], []⟩
  pipe name texts := texts.mapM fun text => if text = "" then .error .external else .ok ⟨[⟨text, text, name⟩], []⟩

theorem extractMany_batches_onlyRu :
    ((∃ results, ((extractMany id onlyRu {} ["Граф", "Graph", "Дерево"]).run
        (afterCalls id onlyRu {} [.extract "Tree", .extractMany ["", "a"]])).1 = .ok results) ↔
      ∀ text ∈ ["Граф", "Graph", "Дерево"], ∃ found,
        ((extract id onlyRu {} text).run (afterCalls id onlyRu {} [])).1 = .ok found) ∧
    ∀ results, ((extractMany id onlyRu {} ["Граф", "Graph", "Дерево"]).run
        (afterCalls id onlyRu {} [.extract "Tree", .extractMany ["", "a"]])).1 = .ok results →
      List.Forall₂ (fun text found => ((extract id onlyRu {} text).run (afterCalls id onlyRu {} [])).1 = .ok found)
        ["Граф", "Graph", "Дерево"] results :=
  extractMany_batches id onlyRu {} (fun _ _ _ => mapM_ok_iff) [.extract "Tree", .extractMany ["", "a"]] []
    ["Граф", "Graph", "Дерево"]

end

end Spacy

end MasResearch.L2
