import Mathlib.Data.List.Infix
import MasResearch.Core.Text

/-!
# Paths

`PurePath` is a path of `pathlib` on POSIX: a root and parts none of which is empty, `.` or has a
`/` in it, which are fields. `parse` is its constructor, `str`, `join` and `name` are what `str(path)`,
`path / text` and `path.name` give.

* `parse_str`: a path that is written out is read back.
* `join_part`: joining a part only adds it.
* `isPart_name`: a name is a part or empty.
-/
namespace MasResearch

def IsPart (s : String) : Prop := s ≠ "" ∧ s ≠ "." ∧ '/' ∉ s.toList

instance (s : String) : Decidable (IsPart s) := inferInstanceAs (Decidable (_ ∧ _ ∧ _))

structure PurePath where
  root : String
  tail : List String
  root_mem : root ∈ ["", "/", "//"]
  parts : ∀ part ∈ tail, IsPart part
  deriving DecidableEq

/-- `posixpath.splitroot`. -/
def splitroot : Text → String × Text
  | '/' :: '/' :: '/' :: rest => ("/", '/' :: '/' :: rest)
  | '/' :: '/' :: rest => ("//", rest)
  | '/' :: rest => ("/", rest)
  | text => ("", text)

/-- `[part for part in text.split("/") if part and part != "."]`. -/
def partsOf (text : Text) : List String :=
  ((text.splitOnP (· = '/')).map String.ofList).filter fun part => part ≠ "" ∧ part ≠ "."

theorem slash_not_mem_splitOnP : ∀ {text word : Text}, word ∈ text.splitOnP (· = '/') → '/' ∉ word
  | [], word, h => by
    obtain rfl : word = [] := by simpa using h
    exact List.not_mem_nil
  | c :: text, word, h => by
    rw [List.splitOnP_cons_eq_if_modifyHead] at h
    split at h
    · rcases List.mem_cons.mp h with rfl | h
      · exact List.not_mem_nil
      · exact slash_not_mem_splitOnP h
    · rename_i hc
      obtain ⟨first, rest, he⟩ := List.exists_cons_of_ne_nil (List.splitOnP_ne_nil (· = '/') text)
      rw [he, List.modifyHead_cons] at h
      have hin : ∀ w ∈ first :: rest, '/' ∉ w := fun w hw => slash_not_mem_splitOnP (he ▸ hw)
      rcases List.mem_cons.mp h with rfl | h
      · rw [List.mem_cons, not_or]
        exact ⟨fun hslash => hc (by simp [← hslash]), hin first List.mem_cons_self⟩
      · exact hin word (List.mem_cons_of_mem _ h)

theorem isPart_partsOf {text : Text} {part : String} (h : part ∈ partsOf text) : IsPart part := by
  obtain ⟨hin, hne⟩ := List.mem_filter.mp h
  obtain ⟨word, hword, rfl⟩ := List.mem_map.mp hin
  obtain ⟨hempty, hdot⟩ := of_decide_eq_true hne
  exact ⟨hempty, hdot, by rw [String.toList_ofList]; exact slash_not_mem_splitOnP hword⟩

theorem splitroot_mem (text : Text) : (splitroot text).1 ∈ ["", "/", "//"] := by
  unfold splitroot
  split <;> simp

namespace PurePath

/-- `PurePath(text)`. -/
def parse (text : Text) : PurePath where
  root := (splitroot text).1
  tail := partsOf (splitroot text).2
  root_mem := splitroot_mem text
  parts _ h := isPart_partsOf h

/-- `"/".join(tail)`. -/
def joined : List String → Text
  | [] => []
  | [part] => part.toList
  | part :: rest => part.toList ++ '/' :: joined rest

/-- `str(path)`. -/
def str (p : PurePath) : Text :=
  if p.root.toList ++ joined p.tail = [] then ['.'] else p.root.toList ++ joined p.tail

/-- `path.name`. -/
def name (p : PurePath) : String := p.tail.getLast?.getD ""

/-- `path / text`. -/
def join (p : PurePath) (text : Text) : PurePath :=
  if (parse text).root ≠ "" then parse text
  else ⟨p.root, p.tail ++ (parse text).tail, p.root_mem, fun part h =>
    (List.mem_append.mp h).elim (p.parts part) ((parse text).parts part)⟩

/-- `path.is_relative_to(other)`. -/
def IsRelativeTo (p other : PurePath) : Prop := other.root = p.root ∧ other.tail <+: p.tail

instance (p other : PurePath) : Decidable (p.IsRelativeTo other) := inferInstanceAs (Decidable (_ ∧ _))

theorem ext_iff {p q : PurePath} : p = q ↔ p.root = q.root ∧ p.tail = q.tail := by
  obtain ⟨⟩ := p
  obtain ⟨⟩ := q
  simp

/-- A name is a part, or the path has none. -/
theorem isPart_name {p : PurePath} (h : p.name ≠ "") : IsPart p.name := by
  cases hl : p.tail.getLast? with
  | none => rw [name, hl] at h; exact absurd rfl h
  | some part =>
    rw [name, hl]
    exact p.parts part (List.mem_of_getLast? hl)

/-! ## Writing and reading -/

theorem not_slash {part : String} (h : IsPart part) {c : Char} (hc : c ∈ part.toList) : decide (c = '/') = false :=
  decide_eq_false fun he => h.2.2 (he ▸ hc)

theorem partsOf_part {part : String} (h : IsPart part) : partsOf part.toList = [part] := by
  rw [partsOf, List.splitOnP_eq_singleton fun c hc => not_slash h hc]
  simp [h.1, h.2.1]

theorem partsOf_cons {part : String} (h : IsPart part) (text : Text) :
    partsOf (part.toList ++ '/' :: text) = part :: partsOf text := by
  rw [partsOf, List.splitOnP_append_cons_of_forall_mem (fun c hc => not_slash h hc) '/' (by decide), List.map_cons,
    List.filter_cons_of_pos (by simp [h.1, h.2.1])]
  simp [partsOf]

theorem partsOf_joined : ∀ {tail : List String}, (∀ part ∈ tail, IsPart part) → partsOf (joined tail) = tail
  | [], _ => by decide
  | [part], h => partsOf_part (h part List.mem_cons_self)
  | part :: next :: rest, h => by
    rw [List.forall_mem_cons] at h
    rw [joined, partsOf_cons h.1, partsOf_joined h.2]
    exact List.cons_ne_nil _ _

/-- What is joined does not begin with a slash. -/
theorem head_joined : ∀ {tail : List String}, (∀ part ∈ tail, IsPart part) → (joined tail).head? ≠ some '/'
  | [], _ => by simp [joined]
  | part :: rest, h => by
    rw [List.forall_mem_cons] at h
    obtain ⟨c, cs, hc⟩ := List.exists_cons_of_ne_nil fun hnil => h.1.1 (String.toList_eq_nil_iff.mp hnil)
    have hslash : c ≠ '/' := by
      rintro rfl
      exact h.1.2.2 (by rw [hc]; exact List.mem_cons_self)
    cases rest with
    | nil => rw [joined, hc]; simpa using hslash
    | cons next rest =>
      rw [joined, hc]
      · simpa using hslash
      · exact List.cons_ne_nil _ _

theorem splitroot_append {text : Text} (hhead : text.head? ≠ some '/') {root : String}
    (hroot : root ∈ ["", "/", "//"]) :
    splitroot (root.toList ++ text) = (root, text) := by
  cases text with
  | nil =>
    rcases List.mem_cons.mp hroot with rfl | hroot
    · rfl
    · rcases List.mem_pair.mp hroot with rfl | rfl <;> rfl
  | cons c cs =>
    have hc : c ≠ '/' := by simpa using hhead
    rcases List.mem_cons.mp hroot with rfl | hroot
    · simp [splitroot, hc]
    · rcases List.mem_pair.mp hroot with rfl | rfl <;> simp [splitroot, hc]

/-- **What is written is read back.** -/
theorem parse_str (p : PurePath) : parse p.str = p := by
  rw [ext_iff]
  unfold str
  split
  · rename_i hnil
    obtain ⟨hroot, htail⟩ := List.append_eq_nil_iff.mp hnil
    have hp := partsOf_joined p.parts
    rw [htail] at hp
    exact ⟨(String.toList_eq_nil_iff.mp hroot).symm, (show (parse ['.']).tail = partsOf [] by decide).trans hp⟩
  · show (splitroot _).1 = _ ∧ partsOf (splitroot _).2 = _
    rw [splitroot_append (head_joined p.parts) p.root_mem]
    exact ⟨rfl, partsOf_joined p.parts⟩

theorem str_inj {p q : PurePath} (h : p.str = q.str) : p = q := by
  rw [← parse_str p, h, parse_str]

theorem parse_part {part : String} (h : IsPart part) :
    (parse part.toList).root = "" ∧ (parse part.toList).tail = [part] := by
  have hone : ∀ x ∈ [part], IsPart x := fun x hx => by rwa [List.mem_singleton.mp hx]
  have hsplit : splitroot part.toList = ("", part.toList) := splitroot_append (head_joined hone) List.mem_cons_self
  refine ⟨congrArg Prod.fst hsplit, ?_⟩
  rw [← partsOf_part h]
  exact congrArg (fun r : String × Text => partsOf r.2) hsplit

/-- **Joining a part** only adds it. -/
theorem join_part (p : PurePath) {part : String} (h : IsPart part) :
    (p.join part.toList).root = p.root ∧ (p.join part.toList).tail = p.tail ++ [part] := by
  obtain ⟨hroot, htail⟩ := parse_part h
  unfold join
  rw [if_neg (not_not.mpr hroot)]
  exact ⟨rfl, congrArg (p.tail ++ ·) htail⟩

theorem join_inj {p : PurePath} {a b : String} (ha : IsPart a) (hb : IsPart b) (h : p.join a.toList = p.join b.toList) :
    a = b := by
  have ht := congrArg tail h
  rw [(join_part p ha).2, (join_part p hb).2] at ht
  simpa using ht

end PurePath

end MasResearch
