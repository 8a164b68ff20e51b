import Mathlib.Data.List.DropRight
import Mathlib.Data.List.Infix

/-!
# Texts

A text is its list of code points. `splitlines`, `strip`, `split` and `find` are the methods of
Python's `str`, `universalNewlines` the translation a file opened in text mode makes.

* `splitlines_break`: what ends a line is a line break, and nothing else is.
* `strip_append`: stripping takes nothing from a text that begins and ends with other
  characters than whitespace.
* `trimmed_strip`: what is stripped is such a text or empty.
* `splitWords_ne_nil`: a text that is not blank has a word.
* `find_take`, `find_le`: `find` gives the first occurrence.
* `find_run`: a run of one character is found where it first fits, if the text before it
  does not end with that character.
-/
namespace MasResearch

abbrev Text := List Char

/-- For a text that is written out; a bounded `∀` over characters is decided by trying all of them. -/
theorem forall_mem_of_all {p : Char → Prop} [DecidablePred p] {text : Text}
    (h : text.all (fun c => decide (p c)) = true) : ∀ c ∈ text, p c := fun c hc =>
  of_decide_eq_true (List.all_eq_true.mp h c hc)

/-! ## Lines -/

/-- The code points `str.splitlines` breaks at. -/
def lineBreaks : List Char :=
  ['\n', '\x0b', '\x0c', '\r', '\x1c', '\x1d', '\x1e', '\u0085', '\u2028', '\u2029']

/-- `text.splitlines()`: `\r\n` is one break, and a last line without a break counts. -/
def splitlines : Text → List Text
  | [] => []
  | '\r' :: '\n' :: cs => [] :: splitlines cs
  | c :: cs =>
    if c ∈ lineBreaks then [] :: splitlines cs
    else match splitlines cs with
      | [] => [[c]]
      | line :: lines => (c :: line) :: lines

/-- `Path.read_text` and `open(.., "r")`. -/
def universalNewlines : Text → Text
  | [] => []
  | '\r' :: '\n' :: cs => '\n' :: universalNewlines cs
  | c :: cs => (if c = '\r' then '\n' else c) :: universalNewlines cs

theorem splitlines_cons {c : Char} (hc : c ≠ '\r') (cs : Text) : splitlines (c :: cs) =
    if c ∈ lineBreaks then [] :: splitlines cs
    else match splitlines cs with
      | [] => [[c]]
      | line :: lines => (c :: line) :: lines := by
  rw [splitlines]
  rintro _ rfl
  exact absurd rfl hc

/-- The first line of a text, up to a break that is not the start of `\r\n`. -/
theorem splitlines_break {line : Text} (hl : ∀ c ∈ line, c ∉ lineBreaks) {b : Char} (hb : b ∈ lineBreaks)
    (hr : b ≠ '\r') (rest : Text) : splitlines (line ++ b :: rest) = line :: splitlines rest := by
  induction line with
  | nil => rw [List.nil_append, splitlines_cons hr, if_pos hb]
  | cons c line ih =>
    rw [List.forall_mem_cons] at hl
    have hc : c ≠ '\r' := by rintro rfl; exact hl.1 (by decide)
    rw [List.cons_append, splitlines_cons hc, if_neg hl.1, ih hl.2]

theorem universalNewlines_eq {text : Text} (h : '\r' ∉ text) : universalNewlines text = text := by
  induction text with
  | nil => rfl
  | cons c cs ih =>
    rw [List.mem_cons, not_or] at h
    rw [universalNewlines, ih h.2, if_neg (Ne.symm h.1)]
    rintro _ rfl
    exact absurd rfl h.1

/-! ## Whitespace -/

/-- The code points of `str.isspace`. -/
def spaces : List Char :=
  ['\t', '\n', '\x0b', '\x0c', '\r', '\x1c', '\x1d', '\x1e', '\x1f', ' ', '\u0085', '\u00a0', '\u1680',
    '\u2000', '\u2001', '\u2002', '\u2003', '\u2004', '\u2005', '\u2006', '\u2007', '\u2008', '\u2009', '\u200a',
    '\u2028', '\u2029', '\u202f', '\u205f', '\u3000']

def isSpace (c : Char) : Bool := c ∈ spaces

/-- `text.strip()`. -/
def strip (text : Text) : Text := (text.dropWhile isSpace).rdropWhile isSpace

/-- `text.strip()` of a string. -/
def stripped (text : String) : String := String.ofList (strip text.toList)

/-- `text.split()`. -/
def splitWords (text : Text) : List Text := (text.splitOnP isSpace).filter fun word => word ≠ []

theorem strip_isInfix (text : Text) : strip text <:+: text :=
  (List.rdropWhile_prefix isSpace _).isInfix.trans (List.dropWhile_suffix isSpace).isInfix

theorem dropWhile_append_cons {p : Char → Bool} {x : Char} (hx : p x = false) (before after : Text) :
    (before ++ x :: after).dropWhile p = before.dropWhile p ++ x :: after := by
  induction before with
  | nil => simp [hx]
  | cons c before ih =>
    rw [List.cons_append, List.dropWhile_cons, List.dropWhile_cons, ih]
    split <;> rfl

theorem rdropWhile_append_cons {p : Char → Bool} {x : Char} (hx : p x = false) (before after : Text) :
    (before ++ x :: after).rdropWhile p = before ++ x :: after.rdropWhile p := by
  have h := dropWhile_append_cons hx after.reverse before.reverse
  have hrev : (before ++ x :: after).reverse = after.reverse ++ x :: before.reverse := by simp
  rw [List.rdropWhile, hrev, h]
  simp [List.rdropWhile]

/-- The text begins and ends with other characters than whitespace. -/
structure Trimmed (text : Text) : Prop where
  first : ∃ x rest, text = x :: rest ∧ isSpace x = false
  last : ∃ rest x, text = rest ++ [x] ∧ isSpace x = false

theorem strip_append {text : Text} (h : Trimmed text) (before after : Text) :
    strip (before ++ (text ++ after)) = before.dropWhile isSpace ++ (text ++ after.rdropWhile isSpace) := by
  obtain ⟨x, rest, rfl, hx⟩ := h.first
  obtain ⟨init, y, hy, hspace⟩ := h.last
  rw [strip, List.cons_append, dropWhile_append_cons hx, ← List.cons_append, hy]
  have happend : before.dropWhile isSpace ++ (init ++ [y] ++ after) =
      (before.dropWhile isSpace ++ init) ++ y :: after := by simp
  rw [happend, rdropWhile_append_cons hspace]
  simp

theorem dropWhile_blank {before : Text} (h : ∀ c ∈ before, isSpace c = true) : before.dropWhile isSpace = [] :=
  List.dropWhile_eq_nil_iff.mpr h

theorem strip_blank {text before after : Text} (h : Trimmed text) (hb : ∀ c ∈ before, isSpace c = true)
    (ha : ∀ c ∈ after, isSpace c = true) : strip (before ++ (text ++ after)) = text := by
  rw [strip_append h, dropWhile_blank hb, List.rdropWhile_eq_nil_iff.mpr ha]
  simp

theorem strip_eq_nil {text : Text} : strip text = [] ↔ ∀ c ∈ text, isSpace c = true := by
  constructor
  · intro h
    have hnil : text.dropWhile isSpace = [] := by
      by_contra hne
      have hall : ∀ c ∈ text.dropWhile isSpace, isSpace c = true := List.rdropWhile_eq_nil_iff.mp h
      have hhead := hall _ (List.head_mem hne)
      rw [List.head_dropWhile_not isSpace hne] at hhead
      cases hhead
    exact List.dropWhile_eq_nil_iff.mp hnil
  · intro h
    rw [strip, dropWhile_blank h]
    rfl

/-- What `strip` leaves, if it leaves anything. -/
theorem trimmed_strip {text : Text} (h : strip text ≠ []) : Trimmed (strip text) where
  first := by
    have hne : text.dropWhile isSpace ≠ [] := fun he => h (by rw [strip, he]; rfl)
    obtain ⟨x, rest, he⟩ := List.exists_cons_of_ne_nil hne
    have hx : isSpace x = false := by
      have hhead := List.head_dropWhile_not isSpace hne
      simpa [he] using hhead
    have happ := rdropWhile_append_cons hx [] rest
    exact ⟨x, rest.rdropWhile isSpace, by rw [strip, he]; exact happ, hx⟩
  last := by
    have hlast := List.rdropWhile_last_not isSpace (text.dropWhile isSpace) h
    exact ⟨(strip text).dropLast, (strip text).getLast h, (List.dropLast_append_getLast h).symm,
      Bool.eq_false_iff.mpr hlast⟩

theorem Trimmed.strip_eq {text : Text} (h : Trimmed text) : strip text = text := by
  have heq : strip ([] ++ (text ++ [])) = text := strip_blank h (by simp) (by simp)
  rwa [List.nil_append, List.append_nil] at heq

theorem Trimmed.ne_nil {text : Text} (h : Trimmed text) : text ≠ [] := by
  obtain ⟨x, rest, rfl, -⟩ := h.first
  exact List.cons_ne_nil x rest

theorem trimmed_of_unspaced {text : Text} (hne : text ≠ []) (h : ∀ c ∈ text, isSpace c = false) : Trimmed text where
  first := by
    obtain ⟨x, rest, rfl⟩ := List.exists_cons_of_ne_nil hne
    exact ⟨x, rest, rfl, h x List.mem_cons_self⟩
  last := ⟨text.dropLast, text.getLast hne, (List.dropLast_append_getLast hne).symm, h _ (List.getLast_mem hne)⟩

theorem mem_splitOnP {p : Char → Bool} {c : Char} (hc : p c = false) : ∀ {text : Text}, c ∈ text →
    ∃ word ∈ text.splitOnP p, c ∈ word
  | x :: text, h => by
    rw [List.splitOnP_cons_eq_if_modifyHead]
    rcases List.mem_cons.mp h with rfl | h
    · obtain ⟨word, words, he⟩ := List.exists_cons_of_ne_nil (List.splitOnP_ne_nil p text)
      rw [if_neg (by simp [hc]), he]
      exact ⟨c :: word, List.mem_cons_self, List.mem_cons_self⟩
    · obtain ⟨word, hword, hin⟩ := mem_splitOnP hc h
      split
      · exact ⟨word, List.mem_cons_of_mem _ hword, hin⟩
      · cases hs : text.splitOnP p with
        | nil => rw [hs] at hword; cases hword
        | cons first rest =>
          rw [hs] at hword
          rcases List.mem_cons.mp hword with rfl | hword
          · exact ⟨x :: word, List.mem_cons_self, List.mem_cons_of_mem _ hin⟩
          · exact ⟨word, List.mem_cons_of_mem _ hword, hin⟩

theorem splitWords_ne_nil {c : Char} {text : Text} (hc : isSpace c = false) (h : c ∈ text) : splitWords text ≠ [] := by
  obtain ⟨word, hword, hin⟩ := mem_splitOnP hc h
  exact List.ne_nil_of_mem (List.mem_filter.mpr ⟨hword, by simpa using List.ne_nil_of_mem hin⟩)

/-! ## Searching -/

/-- `text.find(p)`; `none` is -1. -/
def find (p : Text) : Text → Option Nat
  | [] => if p = [] then some 0 else none
  | c :: cs => if p.isPrefixOf (c :: cs) then some 0 else (find p cs).map (· + 1)

section

variable {p : Text}

theorem find_cons (c : Char) (cs : Text) :
    find p (c :: cs) = if p <+: c :: cs then some 0 else (find p cs).map (· + 1) := by
  simp [find]

/-- What is found is there. -/
theorem find_prefix : ∀ {text : Text} {i : Nat}, find p text = some i → p <+: text.drop i
  | [], i, h => by
    unfold find at h
    split at h
    · rename_i hp; rw [hp]; exact List.nil_prefix
    · cases h
  | c :: cs, i, h => by
    rw [find_cons] at h
    split at h
    · rename_i hpre; cases h; exact hpre
    · obtain ⟨k, hk, rfl⟩ := Option.map_eq_some_iff.mp h
      rw [List.drop_succ_cons]
      exact find_prefix hk

/-- Nothing is found before. -/
theorem find_take (hp : p ≠ []) : ∀ {text : Text} {i : Nat}, find p text = some i → ¬ p <:+: text.take i
  | [], i, h => by simpa using hp
  | c :: cs, i, h => by
    rw [find_cons] at h
    split at h
    · cases h; simpa using hp
    · rename_i hpre
      obtain ⟨k, hk, rfl⟩ := Option.map_eq_some_iff.mp h
      rw [List.take_succ_cons, List.infix_cons_iff, not_or]
      refine ⟨fun hin => hpre (hin.trans ?_), find_take hp hk⟩
      exact List.prefix_cons_inj c |>.mpr (List.take_prefix _ _)

/-- An occurrence is found, or an earlier one. -/
theorem find_le : ∀ {text : Text} {m : Nat}, p <+: text.drop m → ∃ i ≤ m, find p text = some i
  | [], m, h => by
    have hp : p = [] := by simpa using h
    exact ⟨0, Nat.zero_le _, by simp [find, hp]⟩
  | c :: cs, m, h => by
    rw [find_cons]
    split
    · exact ⟨0, Nat.zero_le _, rfl⟩
    · rename_i hpre
      cases m with
      | zero => exact absurd h hpre
      | succ m =>
        obtain ⟨i, hle, hi⟩ : ∃ i ≤ m, find p cs = some i := find_le h
        exact ⟨i + 1, by omega, by rw [hi]; rfl⟩

end

section

variable {c : Char} {n : Nat}

theorem run_infix_append_left {x y : Text} (hx : c ∉ x) :
    List.replicate n c <:+: x ++ y ↔ List.replicate n c <:+: y := by
  induction x with
  | nil => rfl
  | cons a x ih =>
    rw [List.mem_cons, not_or] at hx
    rw [List.cons_append, List.infix_cons_iff, ih hx.2]
    refine or_iff_right_of_imp fun h => ?_
    cases n with
    | zero => exact List.nil_infix
    | succ n => exact absurd (List.cons_prefix_cons.mp h).1 hx.1

theorem run_infix_append_right {x y : Text} (hy : c ∉ y) :
    List.replicate n c <:+: x ++ y ↔ List.replicate n c <:+: x := by
  have h := run_infix_append_left (n := n) (x := y.reverse) (y := x.reverse) (by simpa using hy)
  rwa [← List.reverse_append, ← List.reverse_replicate, List.reverse_infix, List.reverse_infix] at h

theorem find_run {x : Text} (y : Text) (hx : ¬ List.replicate n c <:+: x) (hlast : x.getLast? ≠ some c) :
    find (List.replicate n c) (x ++ (List.replicate n c ++ y)) = some x.length := by
  induction x with
  | nil =>
    cases n with
    | zero => exact absurd List.nil_infix hx
    | succ n =>
      rw [List.nil_append, List.replicate_succ, List.cons_append, find_cons, if_pos]
      · rfl
      · exact List.prefix_append _ _
  | cons a x ih =>
    have hpre : ¬ List.replicate n c <+: a :: (x ++ (List.replicate n c ++ y)) := by
      intro h
      rcases List.prefix_or_prefix_of_prefix h (List.prefix_append (a :: x) _) with h | h
      · exact hx h.isInfix
      · -- the text before would be made of the character alone
        refine hlast ?_
        rw [List.getLast?_eq_some_getLast (by simp)]
        exact congrArg some (List.eq_of_mem_replicate (h.subset (List.getLast_mem _)))
    rw [List.cons_append, find_cons, if_neg hpre, ih (fun h => hx (List.infix_cons h)) fun h => hlast ?_]
    · rfl
    · cases x with
      | nil => cases h
      | cons b x => rwa [List.getLast?_cons_cons]

theorem find_char {x : Text} (y : Text) (hx : c ∉ x) : find [c] (x ++ c :: y) = some x.length := by
  have hone : ¬ List.replicate 1 c <:+: x := fun h => hx (h.subset (by simp))
  exact find_run (n := 1) y hone fun hlast => hx (List.mem_of_getLast? hlast)

/-- `text.rfind(c)`. -/
def rfind (c : Char) (text : Text) : Option Nat := (find [c] text.reverse).map fun k => text.length - 1 - k

theorem rfind_char (x : Text) {y : Text} (hy : c ∉ y) : rfind c (x ++ c :: y) = some x.length := by
  have hrev : (x ++ c :: y).reverse = y.reverse ++ c :: x.reverse := by simp
  have hlen : (x ++ c :: y).length - 1 - y.reverse.length = x.length := by simp
  rw [rfind, hrev, find_char _ (by simpa using hy), Option.map_some, hlen]

end

end MasResearch
