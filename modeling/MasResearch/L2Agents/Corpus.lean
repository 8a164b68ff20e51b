import Mathlib.Data.List.Sort
import Mathlib.Algebra.Order.Ring.Rat
import MasResearch.Core.Dict
import MasResearch.Core.Json

/-!
# The recommender's corpus (`corpus_builder/build.py`, `agents/recommender.py`)

`build` fetches papers, embeds their abstracts and writes two files: one line of JSON
for each paper, and the rows of the embeddings. `loadCorpus` reads them back, pairing the
lines of the one with the rows of the other.

The search results, the embedding model, the conversion of a row to `float16` and back and
the `depth` to which `json.loads` reads are parameters. Text is written and read as UTF-8,
which loses nothing; `numpy.save` and `numpy.load` keep the rows.
-/
namespace MasResearch.L2

/-- A search result; an author without a `display_name` is `none`.
mirrors the fields src/corpus_builder/build.py:24 selects -/
structure Work where
  title : Option Text
  abstractInvertedIndex : Option (Dict Text (List Int))
  authorships : List (Option Text) := []
  publicationYear : Option Json.Integer := none
  doi : Option Text := none
  id : Option Text := none

/-- mirrors src/corpus_builder/build.py:99-107 -/
structure Paper where
  title : Text
  abstract : Text
  authors : Option Text := none
  year : Option Json.Integer := none
  url : Option Text := none

/-- mirrors src/corpus_builder/build.py:40-52 -/
def reconstructAbstract (invertedIndex : Dict Text (List Int)) : Text :=
  let positions := invertedIndex.entries.flatMap fun entry => entry.2.map fun pos => (pos, entry.1)
  let sorted := positions.insertionSort fun p q => p.1 < q.1 ∨ p.1 = q.1 ∧ ¬ q.2 < p.2
  [' '].intercalate (sorted.map Prod.snd)

/-- A string that is there and not empty. -/
def truthy (s : Option Text) : Option Text := s.filter (· ≠ [])

/-- mirrors src/corpus_builder/build.py:91-107 -/
def paperOf (title : Text) (invertedIndex : Dict Text (List Int)) (item : Work) : Paper where
  title := title
  abstract := reconstructAbstract invertedIndex
  authors := truthy (some ([',', ' '].intercalate (item.authorships.filterMap truthy)))
  year := item.publicationYear
  url := (truthy item.doi).or item.id

/-- One round of the inner loop, over what is `seen` and the papers so far. -/
def fetchItem (acc : List Text × List Paper) (item : Work) : List Text × List Paper :=
  match truthy item.title, item.abstractInvertedIndex with
  | some title, some invertedIndex =>
    if invertedIndex.entries = [] ∨ title ∈ acc.1 then acc
    else (title :: acc.1, acc.2 ++ [paperOf title invertedIndex item])
  | _, _ => acc

/-- The papers of the results of all queries.
mirrors src/corpus_builder/build.py:76-108 -/
def fetchPapers (results : List (List Work)) : List Paper := (results.flatten.foldl fetchItem ([], [])).2

/-! ## The files -/

/-- What `build` writes; `ρ` is a stored row. -/
structure CorpusFiles (ρ : Type) where
  jsonl : Text
  npy : List ρ

def optionalText : Option Text → Json
  | none => .null
  | some s => .str s

def optionalInt : Option Json.Integer → Json
  | none => .null
  | some n => .int n

/-- mirrors src/corpus_builder/build.py:125 -/
def Paper.meta (p : Paper) : List (Text × Json) :=
  [("title".toList, .str p.title), ("authors".toList, optionalText p.authors), ("year".toList, optionalInt p.year),
    ("url".toList, optionalText p.url)]

def jsonLine (p : Paper) : Text := Json.dumps (.obj p.meta) ++ ['\n']

/-- Nothing is written for no papers.
mirrors src/corpus_builder/build.py:111-130 -/
def build {ρ σ : Type} (encode : List Text → List ρ) (half : ρ → σ) (papers : List Paper) : Option (CorpusFiles σ) :=
  if papers = [] then none
  else some
    { jsonl := papers.flatMap jsonLine
      npy := (encode (papers.map fun p => "passage: ".toList ++ p.abstract)).map half }

/-- mirrors src/agents/recommender.py:32-40; the fields hold what the JSON held -/
structure CorpusEntry (σ : Type) where
  title : Text
  authors : Json
  year : Json
  url : Json
  embedding : σ

inductive CorpusError where
  | json (failure : Json.Failure)
  | keyError
  | typeError
  deriving DecidableEq, Repr

/-- `str(value)`. -/
def strOf (display : Json → Text) : Json → Text
  | .str s => s
  | v => display v

section

variable {σ : Type} (depth : Nat) (display : Json → Text)

/-- mirrors src/agents/recommender.py:58-67 -/
def corpusEntry (line : Text) (row : σ) : Except CorpusError (CorpusEntry σ) :=
  match Json.loads depth line with
  | .error failure => .error (.json failure)
  | .ok (.obj items) =>
    match (Json.obj items).get? "title".toList with
    | none => .error .keyError
    | some title => .ok
      { title := strOf display title
        authors := ((Json.obj items).get? "authors".toList).getD .null
        year := ((Json.obj items).get? "year".toList).getD .null
        url := ((Json.obj items).get? "url".toList).getD .null
        embedding := row }
  | .ok _ => .error .typeError

/-- `none` are files that do not exist.
mirrors src/agents/recommender.py:43-68 -/
def loadCorpus : Option (CorpusFiles σ) → Except CorpusError (List (CorpusEntry σ))
  | none => .ok []
  | some files =>
    ((splitlines (universalNewlines files.jsonl)).zip files.npy).mapM fun p => corpusEntry depth display p.1 p.2

end

end MasResearch.L2
