import Mathlib.Data.List.Sort
import Mathlib.Data.Prod.Lex
import Mathlib.Data.String.Basic
import MasResearch.Core.Firsts
import MasResearch.Core.Transcript
import MasResearch.L2Agents.Corpus

/-!
# Fetching the papers (`corpus_builder/build.py`)

`fetch` is `fetch_papers` with the API as a service: what it answers may depend on all it was
asked before, and a call may raise. A search is repeated while the API is overloaded. The API
gives an abstract as an inverted index, each word with the positions where it stands.

* `reconstructAbstract_inverts`: the index of a text, in any order, gives the text back.
* `fetchPapers_firsts`: of the works of one title the first becomes a paper.
* `fetch_found`: what the API is asked, and what the papers are made of.
-/
namespace MasResearch.L2

/-! ## Abstracts -/

/-- Every word is listed with each of its positions, once. -/
structure Inverts (index : Dict Text (List Int)) (words : List Text) : Prop where
  once : ∀ entry ∈ index.entries, entry.2.Nodup
  listed : ∀ word pos, (∃ places, index.get? word = some places ∧ pos ∈ places) ↔ itemAt words pos = some word

/-- The pairs that the positions are sorted as. -/
def placed (index : Dict Text (List Int)) : List (Int × Text) :=
  index.entries.flatMap fun entry => entry.2.map fun pos => (pos, entry.1)

theorem mem_placed {index : Dict Text (List Int)} {p : Int × Text} :
    p ∈ placed index ↔ ∃ places, index.get? p.2 = some places ∧ p.1 ∈ places := by
  rw [placed, List.mem_flatMap]
  constructor
  · rintro ⟨entry, hentry, hp⟩
    obtain ⟨pos, hpos, rfl⟩ := List.mem_map.mp hp
    exact ⟨entry.2, Dict.get?_eq_some.mpr hentry, hpos⟩
  · rintro ⟨places, hget, hpos⟩
    exact ⟨(p.2, places), Dict.get?_eq_some.mp hget, List.mem_map.mpr ⟨p.1, hpos, rfl⟩⟩

theorem nodup_placed {index : Dict Text (List Int)} (h : ∀ entry ∈ index.entries, entry.2.Nodup) :
    (placed index).Nodup := by
  refine List.nodup_flatMap.mpr ⟨fun entry hentry => ?_, ?_⟩
  · exact (h entry hentry).map fun a b hab => congrArg Prod.fst hab
  · refine (List.pairwise_map.mp index.nodup).imp fun hne => ?_
    intro p hp hp'
    obtain ⟨pos, -, rfl⟩ := List.mem_map.mp hp
    obtain ⟨pos', -, he⟩ := List.mem_map.mp hp'
    exact hne (congrArg Prod.snd he).symm

/-- The words with their positions, from the left. -/
def numberedWords (words : List Text) : List (Int × Text) := words.zipIdx.map fun p => ((p.2 : Int), p.1)

theorem nodup_numberedWords (words : List Text) : (numberedWords words).Nodup := by
  refine List.Nodup.of_map Prod.fst ?_
  have hfst : (numberedWords words).map Prod.fst = (List.range' 0 words.length).map fun n : Nat => (n : Int) := by
    rw [← List.zipIdx_map_snd, numberedWords, List.map_map, List.map_map]
    rfl
  rw [hfst]
  exact List.Nodup.map (fun a b h => Int.ofNat.inj h) List.nodup_range'

theorem mem_numberedWords {words : List Text} {p : Int × Text} :
    p ∈ numberedWords words ↔ itemAt words p.1 = some p.2 := by
  rw [numberedWords, List.mem_map]
  constructor
  · rintro ⟨q, hq, rfl⟩
    rw [itemAt_natCast]
    exact List.mem_zipIdx_iff_getElem?.mp hq
  · intro h
    unfold itemAt at h
    split_ifs at h with hpos
    exact ⟨(p.2, p.1.toNat), List.mem_zipIdx_iff_getElem?.mpr h, Prod.ext (Int.toNat_of_nonneg hpos) rfl⟩

theorem inverts_iff {index : Dict Text (List Int)} {words : List Text} : Inverts index words ↔
    (∀ entry ∈ index.entries, entry.2.Nodup) ∧ (placed index).Perm (numberedWords words) := by
  constructor
  · intro h
    refine ⟨h.once, (List.perm_ext_iff_of_nodup (nodup_placed h.once) (nodup_numberedWords words)).mpr fun p => ?_⟩
    rw [mem_placed, h.listed, mem_numberedWords]
  · rintro ⟨honce, hperm⟩
    refine ⟨honce, fun word pos => ?_⟩
    rw [← mem_placed (p := (pos, word)), hperm.mem_iff, mem_numberedWords]

/-- The order of `positions.sort()`. -/
def isBefore (p q : Int × Text) : Prop := p.1 < q.1 ∨ p.1 = q.1 ∧ ¬ q.2 < p.2

instance : DecidableRel isBefore := fun p q => inferInstanceAs (Decidable (p.1 < q.1 ∨ p.1 = q.1 ∧ ¬ q.2 < p.2))

theorem isBefore_iff {p q : Int × Text} : isBefore p q ↔ toLex p ≤ toLex q := by
  rw [isBefore, Prod.Lex.toLex_le_toLex, not_lt]

theorem sorted_numberedWords (words : List Text) : (numberedWords words).Pairwise isBefore := by
  have hlt : ((List.range' 0 words.length).map fun n : Nat => (n : Int)).Pairwise (· < ·) :=
    List.pairwise_map.mpr (List.Pairwise.imp (fun h => Int.ofNat_lt.mpr h) List.pairwise_lt_range')
  rw [← List.zipIdx_map_snd, List.map_map] at hlt
  exact List.pairwise_map.mpr ((List.pairwise_map.mp hlt).imp fun h => .inl h)

/-- **An abstract's index gives the abstract back**, in whatever order it lists the words and their
positions. -/
theorem reconstructAbstract_inverts {index : Dict Text (List Int)} {words : List Text} (h : Inverts index words) :
    reconstructAbstract index = [' '].intercalate words := by
  have htotal : Std.Total isBefore := ⟨fun p q => by simp only [isBefore_iff]; exact le_total _ _⟩
  have htrans : IsTrans (Int × Text) isBefore :=
    ⟨fun p q r hpq hqr => isBefore_iff.mpr ((isBefore_iff.mp hpq).trans (isBefore_iff.mp hqr))⟩
  have hsorted : (placed index).insertionSort isBefore = numberedWords words :=
    List.Perm.eq_of_pairwise (fun p q _ _ hpq hqp =>
      toLex.injective (le_antisymm (isBefore_iff.mp hpq) (isBefore_iff.mp hqp)))
      (List.pairwise_insertionSort isBefore _) (sorted_numberedWords words)
      ((List.perm_insertionSort _ _).trans (inverts_iff.mp h).2)
  show [' '].intercalate (((placed index).insertionSort isBefore).map Prod.snd) = _
  rw [hsorted, numberedWords, List.map_map]
  exact congrArg _ (List.zipIdx_map_fst 0 words)

/-- Two words, the first of which stands twice. -/
def catIndex : Dict Text (List Int) := ((∅ : Dict Text (List Int)).set "cat".toList [1]).set "the".toList [2, 0]

theorem reconstructAbstract_inverts_cat : reconstructAbstract catIndex = "the cat the".toList := by
  have h : Inverts catIndex ["the".toList, "cat".toList, "the".toList] := inverts_iff.mpr (by decide)
  exact reconstructAbstract_inverts h

/-! ## Papers -/

/-- The paper of a work, if it has a title and an abstract. -/
def paperFrom (item : Work) : Option Paper :=
  match truthy item.title, item.abstractInvertedIndex with
  | some title, some index => if index.entries = [] then none else some (paperOf title index item)
  | _, _ => none

/-- A round takes the paper of a work unless there is one of its title. -/
theorem fetchItem_eq (acc : List Text × List Paper) (item : Work) : fetchItem acc item =
    match paperFrom item with
    | none => acc
    | some paper => if paper.title ∈ acc.1 then acc else (paper.title :: acc.1, acc.2 ++ [paper]) := by
  unfold fetchItem paperFrom
  cases truthy item.title with
  | none => rfl
  | some title =>
    cases item.abstractInvertedIndex with
    | none => rfl
    | some index =>
      by_cases hnil : index.entries = []
      · simp [hnil]
      · simp only [hnil, false_or, if_false]
        rfl

theorem foldl_fetchItem (items : List Work) : items.foldl fetchItem ([], []) =
    (((firsts Paper.title (items.filterMap paperFrom)).map Paper.title).reverse,
      firsts Paper.title (items.filterMap paperFrom)) := by
  induction items using List.reverseRecOn with
  | nil => rfl
  | append_singleton items item ih =>
    rw [List.foldl_append, ih, List.foldl_cons, List.foldl_nil, fetchItem_eq, List.filterMap_append]
    cases hp : paperFrom item with
    | none => simp [hp]
    | some paper =>
      have hone : [item].filterMap paperFrom = [paper] := by simp [hp]
      have hseen : paper.title ∈ ((firsts Paper.title (items.filterMap paperFrom)).map Paper.title).reverse ↔
          paper.title ∈ (items.filterMap paperFrom).map Paper.title := by
        rw [List.mem_reverse, mem_keys_firsts]
      rw [hone, firsts_concat]
      dsimp only
      by_cases hin : paper.title ∈ (items.filterMap paperFrom).map Paper.title
      · rw [if_pos (hseen.mpr hin), if_pos hin]
      · rw [if_neg fun h => hin (hseen.mp h), if_neg hin, List.map_append, List.reverse_append]
        rfl

/-- **The papers are the first works of their titles**, in the order in which the API gave them. -/
theorem fetchPapers_firsts (results : List (List Work)) :
    fetchPapers results = firsts Paper.title (results.flatten.filterMap paperFrom) := by
  rw [fetchPapers, foldl_fetchItem]

/-! ## Searches -/

/-- mirrors what src/corpus_builder/build.py:55-73 raises, and what `client.get` and `response.json` raise -/
inductive SearchError where
  | transport
  | httpStatusError (statusCode : Nat)
  | jsonDecodeError
  | rateLimited (query : Text)
  deriving DecidableEq, Repr

/-- What the code asks of a response: `works` is what `response.json().get("results", [])` gives, and
`raiseForStatus` what the method of that name does. -/
structure Response where
  statusCode : Nat
  raiseForStatus : Except SearchError Unit
  works : Except SearchError (List Work)

/-- mirrors src/corpus_builder/build.py:34 -/
def maxRetries : Nat := 5

/-- mirrors src/corpus_builder/build.py:65 -/
def Response.busy (response : Response) : Bool := response.statusCode = 429 || 500 ≤ response.statusCode

abbrev Api : Type := Service Text Response SearchError

abbrev ApiM : Type → Type := Exec (List (Exchange Text Response SearchError)) SearchError

/-- The attempts that are left. -/
def searchAttempts (api : Api) (query : Text) : Nat → ApiM (List Work)
  | 0 => Exec.raise (.rateLimited query)
  | n + 1 => do
    let response ← Exec.call api query
    if response.busy then searchAttempts api query n
    else do
      Exec.lift response.raiseForStatus
      Exec.lift response.works

/-- mirrors src/corpus_builder/build.py:55-73 -/
def search (api : Api) (query : Text) : ApiM (List Work) := searchAttempts api query maxRetries

/-- mirrors src/corpus_builder/build.py:76-108 -/
def fetch (api : Api) (queries : List Text) : ApiM (List Paper) := do
  let acc ← queries.foldlM (fun acc query => do
    let items ← search api query
    pure (items.foldl fetchItem acc)) (([], []) : List Text × List Paper)
  pure acc.2

/-- The question was asked, and the API was busy. -/
def Refused (query : Text) (x : Exchange Text Response SearchError) : Prop :=
  x.prompt = query ∧ ∃ response, x.answer = .ok response ∧ response.busy

/-- Up to `n` questions for one query, the last of which was answered with `works`. -/
structure Found (n : Nat) (query : Text) (works : List Work) (new : List (Exchange Text Response SearchError)) :
    Prop where
  split : ∃ refused response, new = refused ++ [⟨query, .ok response⟩] ∧ (∀ x ∈ refused, Refused query x) ∧
    response.busy = false ∧ response.raiseForStatus = .ok () ∧ response.works = .ok works
  length : new.length ≤ n

/-- Up to `n` questions for one query, the last of which made the search raise `e`. -/
inductive Failed (n : Nat) (query : Text) : SearchError → List (Exchange Text Response SearchError) → Prop
  | exhausted {new} (hall : ∀ x ∈ new, Refused query x) (hlen : new.length = n) :
      Failed n query (.rateLimited query) new
  | raised {refused e} (hall : ∀ x ∈ refused, Refused query x) (hlen : refused.length < n) :
      Failed n query e (refused ++ [⟨query, .error e⟩])
  | status {refused response e} (hall : ∀ x ∈ refused, Refused query x) (hlen : refused.length < n)
      (hidle : response.busy = false) (he : response.raiseForStatus = .error e) :
      Failed n query e (refused ++ [⟨query, .ok response⟩])
  | unreadable {refused response e} (hall : ∀ x ∈ refused, Refused query x) (hlen : refused.length < n)
      (hidle : response.busy = false) (hok : response.raiseForStatus = .ok ()) (he : response.works = .error e) :
      Failed n query e (refused ++ [⟨query, .ok response⟩])

section

variable {n : Nat} {query : Text} {works : List Work} {e : SearchError} {x : Exchange Text Response SearchError}
  {new : List (Exchange Text Response SearchError)}

theorem Found.cons (hx : Refused query x) (h : Found n query works new) : Found (n + 1) query works (x :: new) := by
  obtain ⟨refused, response, rfl, hall, hanswer⟩ := h.split
  exact ⟨⟨x :: refused, response, rfl, List.forall_mem_cons.mpr ⟨hx, hall⟩, hanswer⟩, Nat.succ_le_succ h.length⟩

theorem Failed.cons (hx : Refused query x) (h : Failed n query e new) : Failed (n + 1) query e (x :: new) := by
  cases h with
  | exhausted hall hlen => exact .exhausted (List.forall_mem_cons.mpr ⟨hx, hall⟩) (congrArg (· + 1) hlen)
  | raised hall hlen => exact .raised (List.forall_mem_cons.mpr ⟨hx, hall⟩) (Nat.succ_lt_succ hlen)
  | status hall hlen hidle he =>
    exact .status (List.forall_mem_cons.mpr ⟨hx, hall⟩) (Nat.succ_lt_succ hlen) hidle he
  | unreadable hall hlen hidle hok he =>
    exact .unreadable (List.forall_mem_cons.mpr ⟨hx, hall⟩) (Nat.succ_lt_succ hlen) hidle hok he

theorem Failed.length (h : Failed n query e new) : new.length ≤ n := by
  cases h with
  | exhausted _ hlen => exact hlen.le
  | raised _ hlen | status _ hlen | unreadable _ hlen =>
    rw [List.length_append]
    exact hlen

/-- A failed search raises what an exchange raised, unless the API was busy all the time. -/
theorem logs_searchAttempts (api : Api) (query : Text) : ∀ (n : Nat) (log : List (Exchange Text Response SearchError)),
    Exec.Logs (searchAttempts api query n) log (Found n query) (Failed n query)
  | 0, _ => ⟨[], (List.append_nil _).symm, by rintro _ ⟨⟩, by
      rintro _ ⟨⟩; exact .exhausted (List.forall_mem_nil _) rfl⟩
  | n + 1, log => by
    refine (Exec.logs_call api query log).bind ?_ ?_
    · rintro response _ rfl
      by_cases hbusy : response.busy = true
      · have hx : Refused query ⟨query, .ok response⟩ := ⟨rfl, response, rfl, hbusy⟩
        rw [if_pos hbusy]
        exact (logs_searchAttempts api query n _).mono (fun _ _ h => h.cons hx) fun _ _ h => h.cons hx
      · rw [if_neg hbusy]
        have hidle := Bool.eq_false_iff.mpr hbusy
        refine Exec.Logs.bind (Exec.logs_lift _ _) ?_ ?_
        · rintro ⟨⟩ _ ⟨rfl, hok⟩
          refine (Exec.logs_lift _ _).mono ?_ ?_
          · rintro works _ ⟨rfl, hworks⟩
            exact ⟨⟨[], response, rfl, List.forall_mem_nil _, hidle, hok, hworks⟩, by simp⟩
          · rintro e _ ⟨rfl, he⟩
            show Failed (n + 1) query e ([] ++ [⟨query, .ok response⟩])
            exact .unreadable (List.forall_mem_nil _) (Nat.succ_pos n) hidle hok he
        · rintro e _ ⟨rfl, he⟩
          show Failed (n + 1) query e ([] ++ [⟨query, .ok response⟩])
          exact .status (List.forall_mem_nil _) (Nat.succ_pos n) hidle he
    · rintro e _ rfl
      show Failed (n + 1) query e ([] ++ [⟨query, .error e⟩])
      exact .raised (List.forall_mem_nil _) (Nat.succ_pos n)

end

/-- The queries one after the other, each with the works it was answered with. -/
inductive Answered : List Text → List (List Work) → List (Exchange Text Response SearchError) → Prop
  | nil : Answered [] [] []
  | concat {queries results new query works more} (h : Answered queries results new)
      (hfound : Found maxRetries query works more) : Answered (queries ++ [query]) (results ++ [works]) (new ++ more)

theorem Answered.length {queries : List Text} {results : List (List Work)}
    {new : List (Exchange Text Response SearchError)} (h : Answered queries results new) :
    new.length ≤ maxRetries * queries.length := by
  induction h with
  | nil => exact Nat.le_refl _
  | concat _ hfound ih =>
    have := hfound.length
    rw [List.length_append, List.length_append, Nat.mul_add]
    simp only [List.length_singleton]
    omega

theorem logs_fetch (api : Api) (queries : List Text) (log : List (Exchange Text Response SearchError)) :
    Exec.Logs (fetch api queries) log
      (fun papers new => ∃ results, Answered queries results new ∧
        papers = firsts Paper.title (results.flatten.filterMap paperFrom))
      (fun e new => ∃ earlier query later results before more, queries = earlier ++ query :: later ∧
        new = before ++ more ∧ Answered earlier results before ∧ Failed maxRetries query e more) := by
  refine Exec.Logs.bind (Exec.logs_foldlM (J := fun done acc new => ∃ results, Answered done results new ∧
      acc = results.flatten.foldl fetchItem ([], [])) (E := fun e new => ∃ earlier query later results before more,
        queries = earlier ++ query :: later ∧ new = before ++ more ∧ Answered earlier results before ∧
        Failed maxRetries query e more) ?_ ⟨[], .nil, rfl⟩) ?_ fun _ _ h => h
  · rintro done query later acc new hqueries ⟨results, hdone, rfl⟩
    refine (logs_searchAttempts api query maxRetries _).bind (fun works more hfound => ?_) fun e more hfailed =>
      ⟨done, query, later, results, new, more, hqueries, rfl, hdone, hfailed⟩
    refine Exec.logs_pure ⟨results ++ [works], ?_, ?_⟩
    · rw [List.append_nil]
      exact hdone.concat hfound
    · rw [List.flatten_concat, List.foldl_append]
  · rintro acc new ⟨results, hall, rfl⟩
    refine Exec.logs_pure ?_
    rw [List.append_nil, foldl_fetchItem]
    exact ⟨results, hall, rfl⟩

/-- **What the corpus is made of.** Each query is asked until the API is not busy, five times at
most; the papers are the first works of their titles among all the answers; and what is raised is
what one query could not be answered for, the earlier ones having been answered. -/
theorem fetch_found (api : Api) (queries : List Text) (log : List (Exchange Text Response SearchError)) :
    ∃ new, ((fetch api queries).run log).2 = log ++ new ∧ new.length ≤ maxRetries * queries.length ∧
      (∀ papers, ((fetch api queries).run log).1 = .ok papers → ∃ results, Answered queries results new ∧
        papers = firsts Paper.title (results.flatten.filterMap paperFrom)) ∧
      ∀ e, ((fetch api queries).run log).1 = .error e → ∃ earlier query later results before more,
        queries = earlier ++ query :: later ∧ new = before ++ more ∧ Answered earlier results before ∧
        Failed maxRetries query e more := by
  obtain ⟨new, hnew, hok, herr⟩ := logs_fetch api queries log
  refine ⟨new, hnew, ?_, hok, herr⟩
  cases hr : ((fetch api queries).run log).1 with
  | ok papers =>
    obtain ⟨results, hall, -⟩ := hok papers hr
    exact hall.length
  | error e =>
    obtain ⟨earlier, query, later, results, before, more, rfl, rfl, hall, hfailed⟩ := herr e hr
    have h1 := hall.length
    have h2 := hfailed.length
    rw [List.length_append, List.length_append, List.length_cons, Nat.mul_add, Nat.mul_add]
    omega

end MasResearch.L2
