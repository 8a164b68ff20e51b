import MasResearch.L2Agents.LlmJson

/-!
# A code fence inside a string value is taken for the wrapper

`_extract_json` looks for three backticks anywhere in the answer
(src/agents/_llm_json.py:56-64), also inside the JSON. It is there to strip a wrapper
(src/agents/_llm_json.py:50-53), and where a string value has a fence it cuts the JSON
apart.

Counterexample: an object, without any wrapper, one value of which is a fenced `x`.

* `extract_iff`: the JSON comes out of blanks or prose exactly if it does not have two
  fences, one after the other, and out of a fence exactly if it has none.
-/
namespace MasResearch.Bugs.FencedValues

open MasResearch.L2

/-- What a model puts around the JSON. -/
inductive Wrapper (α : Alphabet) where
  | blank (before after : Blank)
  | fence (before after : Prose) (tag : Option (Tag α)) (gap gap' : Blank)
  | prose (before after : Prose)

namespace Wrapper

variable {α : Alphabet}

def wrap (j : Text) : Wrapper α → Text
  | .blank before after => before.1 ++ (j ++ after.1)
  | .fence before after tag gap gap' => before.1 ++ (fenced tag gap gap' j ++ after.1)
  | .prose before after => before.1 ++ (j ++ after.1)

/-- The JSON has no fence that could be taken for the wrapper's. -/
def Spares (j : Text) : Wrapper α → Prop
  | .fence .. => ¬ L2.fence <:+: j
  | .blank .. | .prose .. => ¬ Closed j

end Wrapper

theorem fence_of_closed {j : Text} (h : Closed j) : fence <:+: j := by
  obtain ⟨a, b, c, rfl⟩ := h
  exact ⟨a, b ++ (fence ++ c), by simp⟩

theorem extract_prose_iff {α : Alphabet} {j : Text} (h : Braced j) (before after : Prose) :
    extractJson α (before.1 ++ (j ++ after.1)) = j ↔ ¬ Closed j := by
  refine ⟨fun he hc => ?_, extractJson_open α h before after⟩
  have hno := extractJson_closed α ((closed_prose h before after).mpr hc)
  rw [he] at hno
  exact hno (fence_of_closed hc)

/-- **When a wrapper leaves the JSON alone.** -/
theorem extract_iff {α : Alphabet} (w : Wrapper α) {j : Text} (h : Braced j) :
    extractJson α (w.wrap j) = j ↔ w.Spares j := by
  cases w with
  | blank before after => exact extract_prose_iff h before.prose after.prose
  | prose before after => exact extract_prose_iff h before after
  | fence before after tag gap gap' =>
    refine ⟨fun he => ?_, fun hno => extractJson_fenced h hno tag gap gap' before after⟩
    have hno := extractJson_closed α (closed_fenced tag gap gap' j before after)
    rw [← he]
    exact hno

/-- The letters of ASCII. -/
def ascii : Alphabet where
  isAlpha := Char.isAlpha
  space c h := by
    have hall : ∀ c ∈ spaces, c.isAlpha = false := forall_mem_of_all (by decide)
    exact hall c (of_decide_eq_true h)
  brace := by decide
  backtick := by decide

/-- The object with one key, as a model writes it. -/
def object (value : Text) : Text := Json.dumps (.obj [("a".toList, .str value)])

theorem braced_object (value : Text) : Braced (object value) := braced_dumps _

theorem extract_iff_object :
    extractJson ascii ((Wrapper.fence ⟨[], by simp⟩ ⟨[], by simp⟩
      (some ⟨⟨[], by simp⟩, "json".toList, ⟨[], by simp⟩, by decide, by decide⟩) ⟨[], by simp⟩
      ⟨['\n'], forall_mem_of_all (by decide)⟩ : Wrapper ascii).wrap (object "x".toList)) = object "x".toList :=
  (extract_iff _ (braced_object _)).mpr (by unfold Wrapper.Spares; decide +kernel)

/-- **Counterexample**: the bare object, and nothing is parsed. -/
theorem fenced_value : Json.loads 1000 (object (fence ++ 'x' :: fence)) =
      .ok (.obj [("a".toList, .str (fence ++ 'x' :: fence))]) ∧
    extractJson ascii (object (fence ++ 'x' :: fence)) ≠ object (fence ++ 'x' :: fence) ∧
    parse ascii 1000 (fun data => .ok (some data)) (object (fence ++ 'x' :: fence)) = .ok none := by
  refine ⟨?_, ?_, ?_⟩
  · exact Json.loads_dumps (by simp) (by simp [Json.Scalar]) 1000
  · decide +kernel
  · have hx : extractJson ascii (object (fence ++ 'x' :: fence)) = ['x'] := by decide +kernel
    have hloads : Json.loads 1000 ['x'] = .error .jsonDecodeError := rfl
    rw [parse, hx, hloads]

end MasResearch.Bugs.FencedValues
