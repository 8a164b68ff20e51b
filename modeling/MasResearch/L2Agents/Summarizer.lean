import MasResearch.Core.Firsts
import MasResearch.Core.Join
import MasResearch.Core.Json
import Mathlib.Algebra.Order.Floor.Ring
import Mathlib.Data.Rat.Floor

/-!
# The summarizer agent (`agents/summarizer.py`): blocks and flattened fields

A text that is too long for one call is split into overlapping blocks. What the model gives
for a field of the summary is made one string, also if it is an object or an array.

* `flattenToText_join`: the string is one join of the leaves that are not empty.
* `strip_flattenToText`: it has no whitespace at its ends, so it is flat already.
* `split_blocks`: every window of the text that is no longer than the overlap and one more
  lies in a block.
-/
namespace MasResearch.L2.Summarizer

/-! ## Flattening -/

/-- `"; "`. -/
def semicolon : Text := [';', ' ']

section

variable (floatText : Text → Text)

mutual

/-- `floatText` is what `str` makes of the float that a literal stands for.
mirrors src/agents/summarizer.py:43-52 -/
def flattenToText : Json → Text
  | .str s => strip s
  | .obj items => joinNonempty semicolon (flattenValues items)
  | .arr xs => joinNonempty semicolon (flattenItems xs)
  | .null => "None".toList
  | .bool true => "True".toList
  | .bool false => "False".toList
  | .int n => Json.intText n.1
  | .float literal => floatText literal

/-- `[_flatten_to_text(item) for item in value]`. -/
def flattenItems : List Json → List Text
  | [] => []
  | x :: xs => flattenToText x :: flattenItems xs

/-- `[_flatten_to_text(v) for v in value.values()]`. -/
def flattenValues : List (Text × Json) → List Text
  | [] => []
  | (_, value) :: items => flattenToText value :: flattenValues items

end

mutual

/-- The most calls that are open at once while a value is flattened. -/
def flattenFrames : Json → Nat
  | .obj items => valueFrames items + 1
  | .arr xs => itemFrames xs + 1
  | .str _ | .null | .bool _ | .int _ | .float _ => 1

/-- The generator that is joined is a call, too. -/
def itemFrames : List Json → Nat
  | [] => 1
  | x :: xs => max (flattenFrames x) (itemFrames xs)

def valueFrames : List (Text × Json) → Nat
  | [] => 1
  | (_, value) :: items => max (flattenFrames value) (valueFrames items)

end

mutual

/-- The texts of the leaves from left to right. -/
def leafTexts : Json → List Text
  | .str s => [strip s]
  | .obj items => (valueLeaves items).flatten
  | .arr xs => (itemLeaves xs).flatten
  | .null => ["None".toList]
  | .bool true => ["True".toList]
  | .bool false => ["False".toList]
  | .int n => [Json.intText n.1]
  | .float literal => [floatText literal]

def itemLeaves : List Json → List (List Text)
  | [] => []
  | x :: xs => leafTexts x :: itemLeaves xs

def valueLeaves : List (Text × Json) → List (List Text)
  | [] => []
  | (_, value) :: items => leafTexts value :: valueLeaves items

end

@[simp] theorem flattenToText_obj (items : List (Text × Json)) :
    flattenToText floatText (.obj items) = joinNonempty semicolon (flattenValues floatText items) := rfl

@[simp] theorem flattenToText_arr (xs : List Json) :
    flattenToText floatText (.arr xs) = joinNonempty semicolon (flattenItems floatText xs) := rfl

@[simp] theorem leafTexts_obj (items : List (Text × Json)) :
    leafTexts floatText (.obj items) = (valueLeaves floatText items).flatten := rfl

@[simp] theorem leafTexts_arr (xs : List Json) :
    leafTexts floatText (.arr xs) = (itemLeaves floatText xs).flatten := rfl

theorem joinNonempty_singleton (part : Text) : joinNonempty semicolon [part] = part := by
  rw [joinNonempty_cons, glue]
  by_cases h : part = [] <;> simp [h, joinNonempty, join_nil]

mutual

/-- One join of the leaves that are not empty. -/
theorem flattenToText_join : ∀ value : Json,
    flattenToText floatText value = joinNonempty semicolon (leafTexts floatText value)
  | .str s => (joinNonempty_singleton _).symm
  | .obj items => by
    rw [flattenToText_obj, flattenValues_join items, leafTexts_obj, joinNonempty_flatten]
  | .arr xs => by
    rw [flattenToText_arr, flattenItems_join xs, leafTexts_arr, joinNonempty_flatten]
  | .null => rfl
  | .bool true => rfl
  | .bool false => rfl
  | .int n => (joinNonempty_singleton _).symm
  | .float literal => (joinNonempty_singleton _).symm

theorem flattenItems_join : ∀ xs : List Json,
    flattenItems floatText xs = (itemLeaves floatText xs).map (joinNonempty semicolon)
  | [] => rfl
  | x :: xs => by rw [flattenItems, flattenToText_join x, flattenItems_join xs, itemLeaves, List.map_cons]

theorem flattenValues_join : ∀ items : List (Text × Json),
    flattenValues floatText items = (valueLeaves floatText items).map (joinNonempty semicolon)
  | [] => rfl
  | (_, value) :: items => by
    rw [flattenValues, flattenToText_join value, flattenValues_join items, valueLeaves, List.map_cons]

end

theorem isSpace_digit {c : Char} (h : c.isDigit = true) : isSpace c = false := by
  have hspaces : ∀ s ∈ spaces, s.isDigit = false := forall_mem_of_all (by decide)
  rw [isSpace, decide_eq_false_iff_not]
  exact fun hc => by rw [hspaces c hc] at h; cases h

theorem unspaced_intText (n : Int) : ∀ c ∈ Json.intText n, isSpace c = false := by
  have hdigits : ∀ m : Nat, ∀ c ∈ Nat.toDigits 10 m, isSpace c = false := fun m c hc =>
    isSpace_digit (Nat.isDigit_of_mem_toDigits (by decide) (by decide) hc)
  cases n with
  | ofNat m => exact hdigits m
  | negSucc m => exact List.forall_mem_cons.mpr ⟨by decide, hdigits (m + 1)⟩

/-- The only leaf is a word without whitespace. -/
theorem trimmed_word {word : Text} (h : ∀ c ∈ word, isSpace c = false) : ∀ part ∈ [word], part ≠ [] → Trimmed part := by
  intro part hp hne
  obtain rfl := List.mem_singleton.mp hp
  exact trimmed_of_unspaced hne h

variable {floatText}

mutual

theorem trimmed_leafTexts (hfloat : ∀ literal, ∀ c ∈ floatText literal, isSpace c = false) :
    ∀ value : Json, ∀ part ∈ leafTexts floatText value, part ≠ [] → Trimmed part
  | .str s, part, hp, hne => by
    obtain rfl := List.mem_singleton.mp hp
    exact trimmed_strip hne
  | .obj items, part, hp, hne => by
    obtain ⟨leaves, hleaves, hin⟩ := List.mem_flatten.mp hp
    exact trimmed_valueLeaves hfloat items leaves hleaves part hin hne
  | .arr xs, part, hp, hne => by
    obtain ⟨leaves, hleaves, hin⟩ := List.mem_flatten.mp hp
    exact trimmed_itemLeaves hfloat xs leaves hleaves part hin hne
  | .null, part, hp, hne => trimmed_word (forall_mem_of_all (by decide)) part hp hne
  | .bool true, part, hp, hne => trimmed_word (forall_mem_of_all (by decide)) part hp hne
  | .bool false, part, hp, hne => trimmed_word (forall_mem_of_all (by decide)) part hp hne
  | .int n, part, hp, hne => trimmed_word (unspaced_intText n.1) part hp hne
  | .float literal, part, hp, hne => trimmed_word (hfloat literal) part hp hne

theorem trimmed_itemLeaves (hfloat : ∀ literal, ∀ c ∈ floatText literal, isSpace c = false) :
    ∀ xs : List Json, ∀ leaves ∈ itemLeaves floatText xs, ∀ part ∈ leaves, part ≠ [] → Trimmed part
  | [], _, h, _, _, _ => by cases h
  | x :: xs, leaves, h, part, hp, hne => by
    rcases List.mem_cons.mp h with rfl | h
    · exact trimmed_leafTexts hfloat x part hp hne
    · exact trimmed_itemLeaves hfloat xs leaves h part hp hne

theorem trimmed_valueLeaves (hfloat : ∀ literal, ∀ c ∈ floatText literal, isSpace c = false) :
    ∀ items : List (Text × Json), ∀ leaves ∈ valueLeaves floatText items, ∀ part ∈ leaves, part ≠ [] → Trimmed part
  | [], _, h, _, _, _ => by cases h
  | (_, value) :: items, leaves, h, part, hp, hne => by
    rcases List.mem_cons.mp h with rfl | h
    · exact trimmed_leafTexts hfloat value part hp hne
    · exact trimmed_valueLeaves hfloat items leaves h part hp hne

end

/-- A flattened value has no whitespace at its ends. -/
theorem strip_flattenToText (hfloat : ∀ literal, ∀ c ∈ floatText literal, isSpace c = false) (value : Json) :
    strip (flattenToText floatText value) = flattenToText floatText value := by
  rw [flattenToText_join, joinNonempty]
  by_cases hnil : ((leafTexts floatText value).filter fun part => part ≠ []) = []
  · rw [hnil]; rfl
  · refine (trimmed_join hnil fun part hpart => ?_).strip_eq
    obtain ⟨hin, hne⟩ := List.mem_filter.mp hpart
    exact trimmed_leafTexts hfloat value part hin (by simpa using hne)

/-- No leaf is lost, repeated or moved, and flattening again changes nothing. -/
theorem flattenToText_leaves (hfloat : ∀ literal, ∀ c ∈ floatText literal, isSpace c = false) (value : Json) :
    flattenToText floatText value = join semicolon ((leafTexts floatText value).filter fun part => part ≠ []) ∧
      flattenToText floatText (.str (flattenToText floatText value)) = flattenToText floatText value :=
  ⟨flattenToText_join floatText value, strip_flattenToText hfloat value⟩

/-- An array with a blank string and an object with a float under the keys of an object. -/
def nested : Json := .obj [("a".toList, .arr [.str " x ".toList, .str " ".toList]),
  ("b".toList, .obj [("c".toList, .null), ("d".toList, .float "1.50".toList)])]

theorem flattenToText_leaves_nested :
    flattenToText (fun _ => "1.5".toList) nested =
        join semicolon ((leafTexts (fun _ => "1.5".toList) nested).filter fun part => part ≠ []) ∧
      flattenToText (fun _ => "1.5".toList) (.str (flattenToText (fun _ => "1.5".toList) nested)) =
        flattenToText (fun _ => "1.5".toList) nested :=
  flattenToText_leaves (fun _ => forall_mem_of_all (by decide)) nested

example : flattenToText (fun _ => "1.5".toList) nested = "x; None; 1.5".toList := by decide

end

/-! ## Blocks -/

/-- `range(start, stop, step)` for a positive step. -/
def rangeFrom (start stop step : Nat) : List Nat :=
  if start < stop ∧ 0 < step then start :: rangeFrom (start + step) stop step else []
termination_by stop - start

/-- The sizes the agent is made with.
mirrors src/agents/summarizer.py:72-81 -/
structure SummarizerAgent where
  blockChars : Int := 6000
  overlap : Int := 500

def SummarizerAgent.step (agent : SummarizerAgent) : Int := max 1 (agent.blockChars - agent.overlap)

/-- mirrors src/agents/summarizer.py:132-134 -/
def SummarizerAgent.split (agent : SummarizerAgent) (text : Text) : List Text :=
  (rangeFrom 0 text.length agent.step.toNat).map fun start : Nat =>
    (sliceTo text (start + agent.blockChars)).drop start

theorem getElem?_rangeFrom {stop step : Nat} (hstep : 0 < step) : ∀ k start : Nat,
    (rangeFrom start stop step)[k]? = if start + k * step < stop then some (start + k * step) else none
  | 0, start => by
    rw [rangeFrom, Nat.zero_mul, Nat.add_zero]
    by_cases h : start < stop
    · rw [if_pos ⟨h, hstep⟩, if_pos h]; rfl
    · rw [if_neg (fun hand => h hand.1), if_neg h]; rfl
  | k + 1, start => by
    have hsum : start + (k + 1) * step = start + step + k * step := by rw [Nat.add_mul, Nat.one_mul]; omega
    rw [rangeFrom]
    by_cases h : start < stop
    · rw [if_pos ⟨h, hstep⟩, List.getElem?_cons_succ, getElem?_rangeFrom hstep k (start + step), hsum]
    · rw [if_neg (fun hand => h hand.1), if_neg (by omega)]; rfl

section

variable {agent : SummarizerAgent} {text : Text}

theorem step_pos (agent : SummarizerAgent) : 0 < agent.step.toNat := by
  have h : 1 ≤ agent.step := le_max_left 1 _
  omega

/-- The blocks start a step apart. -/
theorem getElem?_split (hb : 1 ≤ agent.blockChars) (k : Nat) :
    (agent.split text)[k]? = if k * agent.step.toNat < text.length
      then some ((text.drop (k * agent.step.toNat)).take agent.blockChars.toNat) else none := by
  rw [SummarizerAgent.split, List.getElem?_map, getElem?_rangeFrom (step_pos agent), Nat.zero_add]
  by_cases h : k * agent.step.toNat < text.length
  · have hstop : (((k * agent.step.toNat : Nat) : Int) + agent.blockChars).toNat =
        k * agent.step.toNat + agent.blockChars.toNat := by omega
    rw [if_pos h, if_pos h, Option.map_some, sliceTo, if_pos (by omega), hstop, List.drop_take, Nat.add_sub_cancel_left]
  · rw [if_neg h, if_neg h]; rfl

theorem lt_length_split (hb : 1 ≤ agent.blockChars) (k : Nat) :
    k < (agent.split text).length ↔ k * agent.step.toNat < text.length := by
  have hsome : (agent.split text)[k]?.isSome ↔ k < (agent.split text).length := by rw [isSome_getElem?]
  rw [← hsome, getElem?_split hb]
  split <;> simp [*]

theorem length_split (hb : 1 ≤ agent.blockChars) :
    ((agent.split text).length : Int) = ⌈(text.length : ℚ) / (agent.step : ℚ)⌉ := by
  have hlt : ∀ k, k < (agent.split text).length ↔ k * agent.step.toNat < text.length := lt_length_split hb
  have hstep : (agent.step : ℚ) = (agent.step.toNat : ℚ) := by
    have hint : ((agent.step.toNat : Nat) : Int) = agent.step := Int.toNat_of_nonneg (by have := step_pos agent; omega)
    rw [← Int.cast_natCast, hint]
  have hpos : (0 : ℚ) < agent.step.toNat := by exact_mod_cast step_pos agent
  generalize (agent.split text).length = n at hlt
  generalize agent.step.toNat = step at *
  rw [eq_comm, Int.ceil_eq_iff, hstep, lt_div_iff₀ hpos, div_le_iff₀ hpos]
  constructor
  · cases n with
    | zero =>
      have hnn : (0 : ℚ) ≤ text.length := Nat.cast_nonneg _
      simp; linarith
    | succ n =>
      have h : ((n * step : Nat) : ℚ) < text.length := by exact_mod_cast (hlt n).mp (Nat.lt_succ_self n)
      push_cast at h ⊢
      linarith
  · have h : (text.length : ℚ) ≤ ((n * step : Nat) : ℚ) := by
      exact_mod_cast Nat.le_of_not_lt fun h => Nat.lt_irrefl n ((hlt n).mpr h)
    push_cast at h ⊢
    exact h

/-- A window that starts in front of position `i + 1` lies in the block that has position `i`. -/
theorem window_fits {start length last : Nat} (hb : 1 ≤ agent.blockChars) (ho : 0 ≤ agent.overlap)
    (hlength : (length : Int) ≤ min (agent.overlap + 1) agent.blockChars)
    (hlast : start = last ∨ start = last + 1 ∧ length = 0) :
    last / agent.step.toNat * agent.step.toNat ≤ start ∧
      start + length ≤ last / agent.step.toNat * agent.step.toNat + agent.blockChars.toNat := by
  have hdiv := Nat.div_add_mod last agent.step.toNat
  have hmod := Nat.mod_lt last (step_pos agent)
  have hstep : agent.step = max 1 (agent.blockChars - agent.overlap) := rfl
  rw [Nat.mul_comm] at hdiv
  generalize last / agent.step.toNat * agent.step.toNat = first at *
  omega

theorem piece_in_block (hb : 1 ≤ agent.blockChars) (ho : 0 ≤ agent.overlap) {before piece after : Text}
    (htext : text = before ++ (piece ++ after)) (hne : text ≠ [])
    (hpiece : (piece.length : Int) ≤ min (agent.overlap + 1) agent.blockChars) :
    ∃ k x y, (agent.split text)[k]? = some (x ++ (piece ++ y)) ∧ before.length = k * agent.step.toNat + x.length := by
  have hlen : text.length = before.length + (piece.length + after.length) := by rw [htext]; simp
  have hpos : 0 < text.length := List.length_pos_iff.mpr hne
  have hlast : before.length = min before.length (text.length - 1) ∨
      before.length = min before.length (text.length - 1) + 1 ∧ piece.length = 0 := by omega
  obtain ⟨hstart, hstop⟩ := window_fits hb ho hpiece hlast
  obtain ⟨k, hk⟩ : ∃ k, min before.length (text.length - 1) / agent.step.toNat = k := ⟨_, rfl⟩
  rw [hk] at hstart hstop
  have hblock : k * agent.step.toNat < text.length := by
    have hle : k * agent.step.toNat ≤ min before.length (text.length - 1) := hk ▸ Nat.div_mul_le_self _ _
    omega
  have hx : (before.drop (k * agent.step.toNat)).length = before.length - k * agent.step.toNat := List.length_drop
  refine ⟨k, before.drop (k * agent.step.toNat), after.take (agent.blockChars.toNat -
    (before.length - k * agent.step.toNat) - piece.length), ?_, by omega⟩
  rw [getElem?_split hb, if_pos hblock, htext, List.drop_append_of_le_length hstart, List.take_append, List.take_append,
    List.take_of_length_le (by omega), List.take_of_length_le (by omega), hx]

end

/-- The blocks overlap enough for every window of the text. An empty text has no blocks, and
no window but the empty one. -/
theorem split_blocks (agent : SummarizerAgent) (hb : 1 ≤ agent.blockChars) (ho : 0 ≤ agent.overlap) (text : Text) :
    ((agent.split text).length : Int) = ⌈(text.length : ℚ) / (agent.step : ℚ)⌉ ∧
    (∀ block ∈ agent.split text, block ≠ [] ∧ block.length ≤ agent.blockChars) ∧
    (∀ k block, (agent.split text)[k]? = some block →
      block = (text.drop (k * agent.step.toNat)).take agent.blockChars.toNat) ∧
    ∀ before piece after : Text, text = before ++ (piece ++ after) → text ≠ [] →
      (piece.length : Int) ≤ min (agent.overlap + 1) agent.blockChars →
      ∃ k x y, (agent.split text)[k]? = some (x ++ (piece ++ y)) ∧
        before.length = k * agent.step.toNat + x.length := by
  have hblock : ∀ (k : Nat) (block : Text), (agent.split text)[k]? = some block →
      k * agent.step.toNat < text.length ∧ block = (text.drop (k * agent.step.toNat)).take agent.blockChars.toNat := by
    intro k block hk
    rw [getElem?_split hb] at hk
    split at hk
    · rename_i h
      exact ⟨h, (Option.some.inj hk).symm⟩
    · cases hk
  refine ⟨length_split hb, fun block hin => ?_, fun k block hk => (hblock k block hk).2,
    fun before piece after htext hne hpiece => piece_in_block hb ho htext hne hpiece⟩
  obtain ⟨k, hk⟩ := List.mem_iff_getElem?.mp hin
  obtain ⟨hlt, rfl⟩ := hblock k block hk
  have hlength : ((text.drop (k * agent.step.toNat)).take agent.blockChars.toNat).length =
      min agent.blockChars.toNat (text.length - k * agent.step.toNat) := by rw [List.length_take, List.length_drop]
  exact ⟨List.ne_nil_of_length_pos (by omega), by omega⟩

/-- Blocks of four characters that share two. -/
theorem split_blocks_seven :
    (((SummarizerAgent.mk 4 2).split "abcdefg".toList).length : Int) =
      ⌈("abcdefg".toList.length : ℚ) / ((SummarizerAgent.mk 4 2).step : ℚ)⌉ ∧
    (∀ block ∈ (SummarizerAgent.mk 4 2).split "abcdefg".toList, block ≠ [] ∧ (block.length : Int) ≤ 4) ∧
    (∀ k block, ((SummarizerAgent.mk 4 2).split "abcdefg".toList)[k]? = some block →
      block = ("abcdefg".toList.drop (k * (SummarizerAgent.mk 4 2).step.toNat)).take 4) ∧
    ∀ before piece after : Text, "abcdefg".toList = before ++ (piece ++ after) → "abcdefg".toList ≠ [] →
      (piece.length : Int) ≤ min (2 + 1) 4 →
      ∃ k x y, ((SummarizerAgent.mk 4 2).split "abcdefg".toList)[k]? = some (x ++ (piece ++ y)) ∧
        before.length = k * (SummarizerAgent.mk 4 2).step.toNat + x.length :=
  split_blocks ⟨4, 2⟩ (by decide) (by decide) "abcdefg".toList

end MasResearch.L2.Summarizer
