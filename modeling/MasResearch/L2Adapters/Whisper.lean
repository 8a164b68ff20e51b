import MasResearch.Core.Join
import MasResearch.L2Store.Chunks
import Mathlib.Data.List.Chain
import Mathlib.Data.List.Forall2

/-!
# Whisper segments to text chunks (`adapters/whisper_transcriber.py`)

Whisper gives short segments of speech; `segmentsToChunks` collects them in a buffer and
flushes it into a chunk before it would exceed `target_chars`.

* `Filled.step`, `Filled.close`: what one segment and one flush do to the groups of
  segments that are chunks already and to the group in the buffer.
* `segmentsToChunks_groups`: the chunks are consecutive groups of the segments that say
  something, no longer than allowed and filled greedily.
-/
namespace MasResearch.L2.Whisper

open MasResearch.L1

/-- What is read of a faster-whisper segment; `none` is a missing attribute, and also a
text that is `None`. -/
structure Segment where
  text : Option String
  start : Option Value
  «end» : Option Value

/-- `(getattr(segment, "text", "") or "").strip()`. -/
def Segment.words (segment : Segment) : Text := strip (segment.text.getD "").toList

/-- The variables of the loop. -/
structure Filling where
  chunks : List TextChunk := []
  buffer : List Text := []
  bufferLen : Int := 0
  startTime : Value := .none
  endTime : Value := .float 0

/-- `" ".join(parts)`. -/
def spaced (parts : List Text) : Text := join [' '] parts

/-- mirrors src/adapters/whisper_transcriber.py:68-84 -/
def flush (s : Filling) : Filling :=
  let text := strip (spaced s.buffer)
  { s with
    chunks := if text = [] then s.chunks else s.chunks ++
      [{ id := numbered "chunk" s.chunks.length
         taskId := ""
         documentId := ""
         sourceType := .audio
         content := String.ofList text
         chunkIndex := s.chunks.length
         «meta» := [("start", s.startTime), ("end", s.endTime)] }]
    buffer := []
    bufferLen := 0
    startTime := .none }

/-- What the loop does with a segment that says something.
mirrors src/adapters/whisper_transcriber.py:95-99 -/
def append (s : Filling) (segment : Segment) : Filling :=
  { s with
    buffer := s.buffer ++ [segment.words]
    bufferLen := s.bufferLen + (segment.words.length + 1)
    startTime := match s.startTime with
      | .none => segment.start.getD .none
      | startTime => startTime
    endTime := segment.end.getD s.endTime }

/-- mirrors src/adapters/whisper_transcriber.py:88-99 -/
def step (targetChars : Int) (s : Filling) (segment : Segment) : Filling :=
  if segment.words = [] then s
  else if s.buffer ≠ [] ∧ targetChars < s.bufferLen + segment.words.length then append (flush s) segment
  else append s segment

/-- mirrors src/adapters/whisper_transcriber.py:54-101 -/
def segmentsToChunks (segments : List Segment) (targetChars : Int) : List TextChunk :=
  (flush (segments.foldl (step targetChars) {})).chunks

/-! ## Groups of segments -/

/-- Both attributes are there and `start` is not `None`. -/
structure Segment.Timed (segment : Segment) : Prop where
  start : ∃ v, segment.start = some v ∧ v ≠ .none
  «end» : ∃ v, segment.end = some v

/-- The segments that say something. -/
def spoken (segments : List Segment) : List Segment := segments.filter fun segment => segment.words ≠ []

/-- The words of the segments with a space between. -/
def groupText (group : List Segment) : Text := spaced (group.map Segment.words)

/-- The chunk has the words of the group, and its time span. -/
structure ChunkOf (group : List Segment) (chunk : TextChunk) : Prop where
  content : chunk.content.toList = groupText group
  span : (∀ segment ∈ group, segment.Timed) → ∃ first last, group.head? = some first ∧ group.getLast? = some last ∧
    chunk.meta = [("start", first.start.getD .none), ("end", last.end.getD .none)]

def Bounded (targetChars : Int) (group : List Segment) : Prop :=
  (groupText group).length ≤ targetChars ∨ group.length = 1

/-- There was no room in `group` for the first segment of the next one. -/
def Overflows (targetChars : Int) (group next : List Segment) : Prop :=
  ∀ first, next.head? = some first → targetChars < (groupText group ++ ' ' :: first.words).length

/-- The group is in the buffer. -/
structure Buffered (group : List Segment) (s : Filling) : Prop where
  buffer : s.buffer = group.map Segment.words
  bufferLen : s.bufferLen = ((group.map fun segment => segment.words.length + 1).sum : Nat)
  fresh : group = [] → s.startTime = .none
  span : (∀ segment ∈ group, segment.Timed) → ∀ first last, group.head? = some first → group.getLast? = some last →
    s.startTime = first.start.getD .none ∧ s.endTime = last.end.getD .none

/-- The chunks made of groups of segments. -/
structure Chunked (targetChars : Int) (groups : List (List Segment)) (made : List TextChunk) : Prop where
  nonempty : [] ∉ groups
  chunks : List.Forall₂ ChunkOf groups made
  indices : ∀ (i : Nat) (chunk : TextChunk), made[i]? = some chunk → chunk.chunkIndex = i
  bounded : ∀ group ∈ groups, Bounded targetChars group
  greedy : groups.IsChain (Overflows targetChars)

/-- `groups` are chunks and `group` is in the buffer, after the segments `seen`. -/
structure Filled (targetChars : Int) (seen : List Segment) (groups : List (List Segment)) (group : List Segment)
    (s : Filling) : Prop where
  seen : groups.flatten ++ group = spoken seen
  started : group = [] → groups = []
  chunked : Chunked targetChars groups s.chunks
  buffered : Buffered group s
  bounded : group ≠ [] → Bounded targetChars group
  follows : ∀ last ∈ groups.getLast?, Overflows targetChars last group

section

variable {targetChars : Int} {seen : List Segment} {groups : List (List Segment)} {group : List Segment}
  {s : Filling} {segment : Segment}

theorem length_spaced_concat (parts : List Text) (part : Text) :
    (spaced (parts ++ [part])).length = (parts.map fun p => p.length + 1).sum + part.length := by
  cases parts with
  | nil => simp [spaced, join_singleton]
  | cons p parts =>
    have hlen : (join [' '] (p :: parts)).length + 1 = ((p :: parts).map fun p => p.length + 1).sum :=
      length_join (List.cons_ne_nil p parts)
    rw [spaced, join_append (List.cons_ne_nil p parts) (by simp), join_singleton, ← hlen]
    simp only [List.length_append, List.length_singleton, Nat.add_comm]

theorem trimmed_words (h : segment.words ≠ []) : Trimmed segment.words := trimmed_strip h

theorem trimmed_groupText (hne : group ≠ []) (h : ∀ segment ∈ group, segment.words ≠ []) :
    Trimmed (groupText group) := by
  refine trimmed_join (by simpa using hne) fun part hpart => ?_
  obtain ⟨segment, hs, rfl⟩ := List.mem_map.mp hpart
  exact trimmed_words (h segment hs)

theorem Buffered.empty : Buffered [] s ↔ s.buffer = [] ∧ s.bufferLen = 0 ∧ s.startTime = .none := by
  constructor
  · rintro ⟨hb, hl, hf, -⟩
    exact ⟨hb, by simpa using hl, hf rfl⟩
  · rintro ⟨hb, hl, hf⟩
    exact ⟨hb, by simpa using hl, fun _ => hf, by simp⟩

/-- The first start that is not `None` stays. -/
theorem startTime_append {v : Value} (h : s.startTime = v) (hv : v ≠ .none) : (append s segment).startTime = v := by
  subst h
  unfold append
  split
  · rename_i he; exact absurd he hv
  · rfl

theorem startTime_append_none (h : s.startTime = .none) :
    (append s segment).startTime = segment.start.getD .none := by
  rw [append, h]

theorem Buffered.extend (h : Buffered group s) (segment : Segment) :
    Buffered (group ++ [segment]) (append s segment) where
  buffer := by rw [append, h.buffer, List.map_append]; rfl
  bufferLen := by
    rw [append, h.bufferLen, List.map_append, List.sum_append]
    simp
  fresh := by simp
  span := by
    intro htimed first last hfirst hlast
    rw [List.getLast?_concat, Option.some.injEq] at hlast
    subst hlast
    constructor
    · cases group with
      | nil =>
        obtain rfl : segment = first := by simpa using hfirst
        exact startTime_append_none (h.fresh rfl)
      | cons head tail =>
        obtain rfl : head = first := by simpa using hfirst
        obtain ⟨v, hv, hnone⟩ := (htimed head (by simp)).start
        obtain ⟨last, hlast⟩ : ∃ last, (head :: tail).getLast? = some last :=
          ⟨_, List.getLast?_eq_some_getLast (by simp)⟩
        have hspan := h.span (fun seg hseg => htimed seg (List.mem_append_left _ hseg)) head last rfl hlast
        rw [hv, Option.getD_some] at hspan ⊢
        exact startTime_append hspan.1 hnone
    · obtain ⟨v, hv⟩ := (htimed segment (by simp)).end
      rw [append, hv]
      rfl

/-- What a flush makes of a group. -/
theorem Buffered.flush (h : Buffered group s) (hne : group ≠ []) (hwords : ∀ segment ∈ group, segment.words ≠ []) :
    ∃ chunk : TextChunk, (flush s).chunks = s.chunks ++ [chunk] ∧ chunk.chunkIndex = s.chunks.length ∧
      ChunkOf group chunk := by
  have htrim := trimmed_groupText hne hwords
  have htext : strip (spaced s.buffer) = groupText group := by rw [h.buffer]; exact htrim.strip_eq
  refine ⟨_, by rw [Whisper.flush, htext, if_neg htrim.ne_nil], ?_, ?_⟩
  · rfl
  refine ⟨String.toList_ofList, fun htimed => ?_⟩
  obtain ⟨first, rest, rfl⟩ := List.exists_cons_of_ne_nil hne
  obtain ⟨last, hlast⟩ : ∃ last, (first :: rest).getLast? = some last := ⟨_, List.getLast?_eq_some_getLast hne⟩
  obtain ⟨hstart, hend⟩ := h.span htimed first last rfl hlast
  exact ⟨first, last, rfl, hlast, by rw [hstart, hend]⟩

theorem Chunked.concat {made : List TextChunk} (h : Chunked targetChars groups made) {chunk : TextChunk}
    (hindex : chunk.chunkIndex = made.length) (hof : ChunkOf group chunk) (hne : group ≠ [])
    (hbounded : Bounded targetChars group) (hfollows : ∀ last ∈ groups.getLast?, Overflows targetChars last group) :
    Chunked targetChars (groups ++ [group]) (made ++ [chunk]) where
  nonempty := by simp [h.nonempty, Ne.symm hne]
  chunks := List.rel_append h.chunks (.cons hof .nil)
  indices i c hget := by
    rw [List.getElem?_append] at hget
    split at hget
    · exact h.indices i c hget
    · obtain rfl := List.mem_singleton.mp (List.mem_of_getElem? hget)
      have hi : i - made.length < 1 := (List.getElem?_eq_some_iff.mp hget).1
      rw [hindex]
      omega
  bounded g hg := by
    rcases List.mem_append.mp hg with hg | hg
    · exact h.bounded g hg
    · rwa [List.mem_singleton.mp hg]
  greedy := by
    refine List.isChain_append.mpr ⟨h.greedy, .singleton _, fun last hlast next hnext => ?_⟩
    obtain rfl : group = next := by simpa using hnext
    exact hfollows last hlast

theorem buffered_flush (s : Filling) : Buffered [] (flush s) := Buffered.empty.mpr ⟨rfl, rfl, rfl⟩

theorem chunked_nil (targetChars : Int) : Chunked targetChars [] [] where
  nonempty := by simp
  chunks := .nil
  indices := by simp
  bounded := by simp
  greedy := .nil

theorem filled_start (targetChars : Int) : Filled targetChars [] [] [] {} where
  seen := rfl
  started _ := rfl
  chunked := chunked_nil targetChars
  buffered := Buffered.empty.mpr ⟨rfl, rfl, rfl⟩
  bounded h := absurd rfl h
  follows := by simp

theorem spoken_concat (seen : List Segment) (segment : Segment) :
    spoken (seen ++ [segment]) = if segment.words = [] then spoken seen else spoken seen ++ [segment] := by
  rw [spoken, List.filter_append]
  by_cases h : segment.words = []
  · simp [h, spoken]
  · simp [h, spoken]

theorem Filled.words (h : Filled targetChars seen groups group s) : ∀ segment ∈ group, segment.words ≠ [] := by
  intro segment hs
  have hin : segment ∈ spoken seen := h.seen ▸ List.mem_append_right _ hs
  simpa using (List.mem_filter.mp hin).2

theorem Filled.bufferLen (h : Filled targetChars seen groups group s) (segment : Segment) :
    s.bufferLen + segment.words.length = (groupText (group ++ [segment])).length := by
  have hlen := length_spaced_concat (group.map Segment.words) segment.words
  rw [h.buffered.bufferLen, groupText, List.map_append, List.map_singleton, hlen, List.map_map]
  rfl

theorem groupText_concat (hne : group ≠ []) (segment : Segment) :
    groupText (group ++ [segment]) = groupText group ++ ' ' :: segment.words := by
  rw [groupText, List.map_append, List.map_singleton, spaced, join_append (by simpa using hne) (by simp),
    join_singleton, List.append_assoc]
  rfl

/-- The segment fits, or comes first. -/
theorem Filled.extend (h : Filled targetChars seen groups group s) (hspeaks : segment.words ≠ [])
    (hfits : group ≠ [] → s.bufferLen + segment.words.length ≤ targetChars) :
    Filled targetChars (seen ++ [segment]) groups (group ++ [segment]) (append s segment) where
  seen := by rw [spoken_concat, if_neg hspeaks, ← h.seen, List.append_assoc]
  started hnil := absurd hnil (by simp)
  chunked := h.chunked
  buffered := h.buffered.extend segment
  bounded _ := by
    by_cases hgroup : group = []
    · exact .inr (by rw [hgroup]; rfl)
    · exact .inl (by rw [← h.bufferLen]; exact hfits hgroup)
  follows last hlast := by
    by_cases hgroup : group = []
    · rw [h.started hgroup] at hlast; cases hlast
    · obtain ⟨first, rest, rfl⟩ := List.exists_cons_of_ne_nil hgroup
      exact h.follows last hlast

/-- What is in the buffer becomes a chunk. -/
theorem Filled.close (h : Filled targetChars seen groups group s) (hne : group ≠ []) :
    Chunked targetChars (groups ++ [group]) (flush s).chunks := by
  obtain ⟨chunk, hchunks, hindex, hof⟩ := h.buffered.flush hne h.words
  rw [hchunks]
  exact h.chunked.concat hindex hof hne (h.bounded hne) h.follows

/-- The group is full: it becomes a chunk and the segment starts the next one. -/
theorem Filled.turn (h : Filled targetChars seen groups group s) (hspeaks : segment.words ≠ []) (hne : group ≠ [])
    (hfull : targetChars < s.bufferLen + segment.words.length) :
    Filled targetChars (seen ++ [segment]) (groups ++ [group]) [segment] (append (flush s) segment) where
  seen := by
    rw [spoken_concat, if_neg hspeaks, ← h.seen]
    simp
  started hnil := absurd hnil (by simp)
  chunked := h.close hne
  buffered := (buffered_flush s).extend segment
  bounded _ := .inr rfl
  follows last hlast first hfirst := by
    obtain rfl : group = last := by simpa using hlast
    obtain rfl : segment = first := by simpa using hfirst
    rwa [h.bufferLen, groupText_concat hne] at hfull

theorem Filled.skip (h : Filled targetChars seen groups group s) (hblank : segment.words = []) :
    Filled targetChars (seen ++ [segment]) groups group s :=
  { h with seen := by rw [spoken_concat, if_pos hblank, h.seen] }

theorem Filled.step (h : Filled targetChars seen groups group s) (segment : Segment) :
    ∃ groups' group', Filled targetChars (seen ++ [segment]) groups' group' (step targetChars s segment) := by
  have hbuffer : s.buffer = [] ↔ group = [] := by rw [h.buffered.buffer, List.map_eq_nil_iff]
  unfold Whisper.step
  by_cases hblank : segment.words = []
  · rw [if_pos hblank]
    exact ⟨groups, group, h.skip hblank⟩
  rw [if_neg hblank]
  by_cases hfull : s.buffer ≠ [] ∧ targetChars < s.bufferLen + segment.words.length
  · rw [if_pos hfull]
    exact ⟨_, _, h.turn hblank (fun hnil => hfull.1 (hbuffer.mpr hnil)) hfull.2⟩
  · rw [if_neg hfull]
    refine ⟨_, _, h.extend hblank fun hne => ?_⟩
    by_contra hlt
    exact hfull ⟨fun hnil => hne (hbuffer.mp hnil), by omega⟩

theorem Filled.run : ∀ (segments : List Segment) {seen : List Segment} {groups : List (List Segment)}
    {group : List Segment} {s : Filling}, Filled targetChars seen groups group s →
    ∃ groups' group', Filled targetChars (seen ++ segments) groups' group' (segments.foldl (Whisper.step targetChars) s)
  | [], _, groups, group, _, h => ⟨groups, group, by rwa [List.append_nil]⟩
  | segment :: segments, _, _, _, _, h => by
    obtain ⟨groups', group', hstep⟩ := h.step segment
    obtain ⟨groups'', group'', hrun⟩ := Filled.run segments hstep
    exact ⟨groups'', group'', by rwa [List.append_assoc] at hrun⟩

end

/-! ## The chunks -/

/-- The chunks are greedy groups of the segments that say something, in order. -/
theorem segmentsToChunks_groups (segments : List Segment) (targetChars : Int) :
    ∃ groups : List (List Segment), groups.flatten = spoken segments ∧
      Chunked targetChars groups (segmentsToChunks segments targetChars) ∧
      spaced ((segmentsToChunks segments targetChars).map fun chunk => chunk.content.toList) =
        spaced ((spoken segments).map Segment.words) := by
  obtain ⟨groups, group, h⟩ := (filled_start targetChars).run segments
  rw [List.nil_append] at h
  obtain ⟨all, hall, hchunked⟩ : ∃ all : List (List Segment), all.flatten = spoken segments ∧
      Chunked targetChars all (segmentsToChunks segments targetChars) := by
    by_cases hgroup : group = []
    · have hflush : segmentsToChunks segments targetChars = (segments.foldl (step targetChars) {}).chunks := by
        rw [segmentsToChunks, flush, h.buffered.buffer, hgroup]
        rfl
      exact ⟨groups, by rw [← h.seen, hgroup, List.append_nil], hflush ▸ h.chunked⟩
    · exact ⟨groups ++ [group], by rw [← h.seen]; simp, h.close hgroup⟩
  refine ⟨all, hall, hchunked, ?_⟩
  have hcontents : ((segmentsToChunks segments targetChars).map fun chunk => chunk.content.toList) =
      (all.map (List.map Segment.words)).map spaced := by
    rw [List.map_map, ← List.forall₂_eq_eq_eq, List.forall₂_map_left_iff, List.forall₂_map_right_iff]
    exact hchunked.chunks.flip.imp fun _ _ hof => hof.content
  rw [hcontents, spaced, ← hall, List.map_flatten]
  refine join_flatten fun parts hparts => ?_
  obtain ⟨g, hg, rfl⟩ := List.mem_map.mp hparts
  exact fun hnil => hchunked.nonempty (List.map_eq_nil_iff.mp hnil ▸ hg)

/-- The second and the third segment just fit, the fourth does not. -/
example : (segmentsToChunks [⟨some " ab ", none, none⟩, ⟨some "cd", none, none⟩, ⟨none, none, none⟩,
    ⟨some "e", none, none⟩, ⟨some "f", none, none⟩] 7).map (·.content) = ["ab cd e", "f"] := by decide

end MasResearch.L2.Whisper
