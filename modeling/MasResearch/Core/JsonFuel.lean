import MasResearch.Core.Json

/-!
# The fuel of the JSON reader

`loads` reads with an amount of fuel, and a text that uses it up would be refused as no JSON.
There is none: every scanner leaves no more than it was given, and each step into a container
takes a character off.

* `shortens_parse`: what the reader leaves.
* `loads_fuel`: the fuel of `loads` is enough.
-/
namespace MasResearch

namespace Json

/-! ## What is left -/

theorem length_dropWhile_le (p : Char → Bool) (cs : Text) : (cs.dropWhile p).length ≤ cs.length :=
  (List.dropWhile_suffix _).length_le

theorem length_skipSpace_le (cs : Text) : (skipSpace cs).length ≤ cs.length := length_dropWhile_le _ cs

/-- What a scanner leaves is no longer than what it was given. -/
def Shortens {α : Type} (scan : Text → Except Failure (α × Text)) : Prop :=
  ∀ cs p, scan cs = .ok p → p.2.length ≤ cs.length

theorem length_of_map {α β : Type} {r : Except Failure (α × Text)} {g : α × Text → β × Text} {q : β × Text} {n : Nat}
    (h : r.map g = .ok q) (hg : ∀ p, (g p).2 = p.2) (hr : ∀ p, r = .ok p → p.2.length ≤ n) : q.2.length ≤ n := by
  cases r with
  | error e => cases h
  | ok p =>
    obtain rfl := Except.ok.inj h
    rw [hg]
    exact hr p rfl

theorem shortens_scanUnit : Shortens scanUnit := by
  intro cs p h
  unfold scanUnit at h
  split at h
  · split at h
    · rw [← Except.ok.inj h]
      simp only [List.length_cons]
      omega
    · cases h
  · cases h

theorem shortens_scanUnicode : Shortens scanUnicode := by
  intro cs p h
  unfold scanUnicode at h
  cases hunit : scanUnit cs with
  | error e => rw [hunit] at h; cases h
  | ok q =>
    have hq := shortens_scanUnit cs q hunit
    simp only [hunit] at h
    split at h
    · split at h
      · rename_i rest hrest
        cases hpair : scanUnit rest with
        | error e => rw [hpair] at h; cases h
        | ok r =>
          have hr := shortens_scanUnit rest r hpair
          simp only [hpair] at h
          split at h
          · rw [hrest, List.length_cons, List.length_cons] at hq
            rw [show p.2 = r.2 by rw [← Except.ok.inj h]]
            omega
          · cases h
      · cases h
    · split at h
      · cases h
      · rw [← Except.ok.inj h]; exact hq

theorem shortens_scanEscape : Shortens scanEscape := by
  intro cs p h
  unfold scanEscape at h
  split at h
  case h_9 cs => exact (shortens_scanUnicode cs p h).trans (Nat.le_succ _)
  case h_10 => cases h
  all_goals exact Except.ok.inj h ▸ Nat.le_succ _

theorem shortens_scanString (n : Nat) : Shortens (scanString n) := by
  intro cs p h
  induction n generalizing cs p with
  | zero => rw [scanString] at h; cases h
  | succ n ih =>
    cases cs with
    | nil => rw [scanString] at h; cases h; exact Nat.succ_ne_zero _
    | cons c cs =>
      rw [scanString] at h
      split at h
      · rw [← Except.ok.inj h]; exact Nat.le_succ _
      · split at h
        · cases hesc : scanEscape cs with
          | error e => rw [hesc] at h; cases h
          | ok q =>
            simp only [hesc] at h
            have hq := shortens_scanEscape cs q hesc
            exact (length_of_map h (fun _ => rfl) (ih _)).trans (hq.trans (Nat.le_succ _))
        · split at h
          · cases h
          · exact (length_of_map h (fun _ => rfl) (ih _)).trans (Nat.le_succ _)

theorem shortens_scanNumber : Shortens scanNumber := by
  have hminus : ∀ cs, (scanMinus cs).2.length ≤ cs.length := by
    intro cs; unfold scanMinus; split <;> simp
  have hdigits : ∀ cs, (scanDigits cs).2.length ≤ cs.length := by
    intro cs
    unfold scanDigits
    split
    · exact Nat.le_succ _
    · exact length_dropWhile_le _ _
  have hfraction : ∀ cs, (scanFraction cs).2.length ≤ cs.length := by
    intro cs
    unfold scanFraction
    split
    · split
      · exact Nat.le_refl _
      · exact (length_dropWhile_le _ _).trans (Nat.le_succ _)
    · exact Nat.le_refl _
  have hsign : ∀ cs, (scanSign cs).2.length ≤ cs.length := by
    intro cs; unfold scanSign; split <;> simp
  have hexponent : ∀ cs, (scanExponent cs).2.length ≤ cs.length := by
    intro cs
    cases cs with
    | nil => exact Nat.le_refl _
    | cons c cs =>
      simp only [scanExponent]
      split
      · exact (length_dropWhile_le _ _).trans ((hsign cs).trans (Nat.le_succ _))
      · exact Nat.le_refl _
  intro cs p h
  have hall := (hexponent _).trans ((hfraction _).trans ((hdigits _).trans (hminus cs)))
  simp only [scanNumber] at h
  split at h
  · cases h
  · split at h
    · generalize integer _ = r at h
      cases r with
      | error e => cases h
      | ok n => exact Except.ok.inj h ▸ hall
    · exact Except.ok.inj h ▸ hall

theorem length_scanWord {cs : Text} {p : Json × Text} (h : scanWord cs = some p) : p.2.length ≤ cs.length := by
  obtain ⟨word, -, hdrop⟩ := List.exists_of_findSome?_eq_some h
  obtain ⟨rest, hrest, rfl⟩ := Option.map_eq_some_iff.mp hdrop
  obtain ⟨word', rfl, -⟩ := List.dropPrefix?_eq_some_iff.mp hrest
  rw [List.length_append]
  exact Nat.le_add_left _ _

/-! ### Values, members and elements -/

section

variable {n : Nat}

theorem shortens_parseValue (hmembers : ∀ room, Shortens (parseMembers n room))
    (helements : ∀ room, Shortens (parseElements n room)) (room : Nat) : Shortens (parseValue (n + 1) room) := by
  intro cs p h
  cases cs with
  | nil => rw [parseValue] at h; cases h; exact Nat.succ_ne_zero _
  | cons c cs =>
    have hskip := length_skipSpace_le cs
    simp only [parseValue] at h
    split at h
    · exact (length_of_map h (fun _ => rfl) (shortens_scanString _ _)).trans (Nat.le_succ _)
    · split at h
      · cases room with
        | zero => cases h
        | succ room =>
          dsimp only at h
          split at h
          · rename_i rest hrest
            rw [hrest, List.length_cons] at hskip
            rw [← Except.ok.inj h, List.length_cons]
            dsimp only
            omega
          · exact (length_of_map h (fun _ => rfl) (hmembers room _)).trans (hskip.trans (Nat.le_succ _))
      · split at h
        · cases room with
          | zero => cases h
          | succ room =>
            dsimp only at h
            split at h
            · rename_i rest hrest
              rw [hrest, List.length_cons] at hskip
              rw [← Except.ok.inj h, List.length_cons]
              dsimp only
              omega
            · exact (length_of_map h (fun _ => rfl) (helements room _)).trans (hskip.trans (Nat.le_succ _))
        · split at h
          · rename_i q hword
            exact Except.ok.inj h ▸ length_scanWord hword
          · exact shortens_scanNumber _ _ h

theorem shortens_parseMembers (hvalue : ∀ room, Shortens (parseValue n room))
    (hmembers : ∀ room, Shortens (parseMembers n room)) (room : Nat) : Shortens (parseMembers (n + 1) room) := by
  intro cs p h
  simp only [parseMembers] at h
  split at h
  · rename_i cs
    split at h
    · cases h
    · rename_i key rest hkey
      have hrest := shortens_scanString _ _ _ hkey
      split at h
      · rename_i rest' hcolon
        have hrest' := length_skipSpace_le rest
        rw [hcolon, List.length_cons] at hrest'
        split at h
        · cases h
        · rename_i value tail hvalue'
          have htail := (hvalue room _ _ hvalue').trans (length_skipSpace_le rest')
          have hskip := length_skipSpace_le tail
          split at h
          · rename_i last hlast
            rw [hlast, List.length_cons] at hskip
            rw [← Except.ok.inj h, List.length_cons]
            dsimp only at *
            omega
          · rename_i next hnext
            have hmore := length_of_map h (fun _ => rfl) (hmembers room _)
            have hskip' := length_skipSpace_le next
            rw [hnext, List.length_cons] at hskip
            rw [List.length_cons]
            dsimp only at *
            omega
          · cases h
      · cases h
  · cases h

theorem shortens_parseElements (hvalue : ∀ room, Shortens (parseValue n room))
    (helements : ∀ room, Shortens (parseElements n room)) (room : Nat) : Shortens (parseElements (n + 1) room) := by
  intro cs p h
  simp only [parseElements] at h
  split at h
  · cases h
  · rename_i value tail hvalue'
    have htail := hvalue room _ _ hvalue'
    have hskip := length_skipSpace_le tail
    split at h
    · rename_i last hlast
      rw [hlast, List.length_cons] at hskip
      rw [← Except.ok.inj h]
      dsimp only at *
      omega
    · rename_i next hnext
      have hmore := length_of_map h (fun _ => rfl) (helements room _)
      have hskip' := length_skipSpace_le next
      rw [hnext, List.length_cons] at hskip
      dsimp only at *
      omega
    · cases h

end

/-- The reader takes a value off the text, or the rest of a container. -/
theorem shortens_parse (n : Nat) : (∀ room, Shortens (parseValue n room)) ∧
    (∀ room, Shortens (parseMembers n room)) ∧ ∀ room, Shortens (parseElements n room) := by
  induction n with
  | zero => exact ⟨fun _ _ _ h => by simp [parseValue] at h, fun _ _ _ h => by simp [parseMembers] at h,
      fun _ _ _ h => by simp [parseElements] at h⟩
  | succ n ih =>
    obtain ⟨hvalue, hmembers, helements⟩ := ih
    exact ⟨shortens_parseValue hmembers helements, shortens_parseMembers hvalue hmembers,
      shortens_parseElements hvalue helements⟩

/-! ## What is needed -/

section

variable {n : Nat}

theorem parseValue_succ
    (hmembers : ∀ room cs, 2 * cs.length < n → parseMembers (n + 1) room cs = parseMembers n room cs)
    (helements : ∀ room cs, 2 * cs.length + 1 < n → parseElements (n + 1) room cs = parseElements n room cs)
    (room : Nat) (cs : Text) (h : 2 * cs.length < n + 1) :
    parseValue (n + 1 + 1) room cs = parseValue (n + 1) room cs := by
  cases cs with
  | nil => rfl
  | cons c cs =>
    have hskip := length_skipSpace_le cs
    rw [List.length_cons] at h
    have hm := fun room => hmembers room (skipSpace cs) (by omega)
    have he := fun room => helements room (skipSpace cs) (by omega)
    cases room with
    | zero => simp only [parseValue]
    | succ room =>
      simp only [parseValue]
      generalize skipSpace cs = rest at hm he
      split
      · rfl
      · split
        · split
          · rfl
          · rw [hm]
        · split
          · split
            · rfl
            · rw [he]
          · rfl

theorem parseMembers_succ
    (hvalue : ∀ room cs, 2 * cs.length < n → parseValue (n + 1) room cs = parseValue n room cs)
    (hmembers : ∀ room cs, 2 * cs.length < n → parseMembers (n + 1) room cs = parseMembers n room cs)
    (room : Nat) (cs : Text) (h : 2 * cs.length < n + 1) :
    parseMembers (n + 1 + 1) room cs = parseMembers (n + 1) room cs := by
  rw [parseMembers.eq_def (n + 1 + 1) room cs, parseMembers.eq_def (n + 1) room cs]
  dsimp only
  split
  · rename_i cs
    rw [List.length_cons] at h
    split
    · rfl
    · rename_i key rest hkey
      have hrest := shortens_scanString _ _ _ hkey
      dsimp only at hrest
      split
      · rename_i rest' hcolon
        have hrest' := length_skipSpace_le rest
        rw [hcolon, List.length_cons] at hrest'
        have hskip := length_skipSpace_le rest'
        rw [hvalue room (skipSpace rest') (by omega)]
        split
        · rfl
        · rename_i value tail hok
          have htail := (shortens_parse n).1 room _ _ hok
          dsimp only at htail
          have hskip' := length_skipSpace_le tail
          split
          · rfl
          · rename_i next hnext
            have hskip'' := length_skipSpace_le next
            rw [hnext, List.length_cons] at hskip'
            rw [hmembers room (skipSpace next) (by omega)]
          · rfl
      · rfl
  · rfl

theorem parseElements_succ
    (hvalue : ∀ room cs, 2 * cs.length < n → parseValue (n + 1) room cs = parseValue n room cs)
    (helements : ∀ room cs, 2 * cs.length + 1 < n → parseElements (n + 1) room cs = parseElements n room cs)
    (room : Nat) (cs : Text) (h : 2 * cs.length + 1 < n + 1) :
    parseElements (n + 1 + 1) room cs = parseElements (n + 1) room cs := by
  rw [parseElements.eq_def (n + 1 + 1) room cs, parseElements.eq_def (n + 1) room cs]
  dsimp only
  rw [hvalue room cs (by omega)]
  split
  · rfl
  · rename_i value tail hok
    have htail := (shortens_parse n).1 room _ _ hok
    dsimp only at htail
    have hskip := length_skipSpace_le tail
    split
    · rfl
    · rename_i next hnext
      have hskip' := length_skipSpace_le next
      rw [hnext, List.length_cons] at hskip
      rw [helements room (skipSpace next) (by omega)]
    · rfl

end

/-- Above what a text may need, one unit more of fuel changes nothing. -/
theorem parse_succ (n : Nat) :
    (∀ room cs, 2 * cs.length < n → parseValue (n + 1) room cs = parseValue n room cs) ∧
    (∀ room cs, 2 * cs.length < n → parseMembers (n + 1) room cs = parseMembers n room cs) ∧
    ∀ room cs, 2 * cs.length + 1 < n → parseElements (n + 1) room cs = parseElements n room cs := by
  induction n with
  | zero => exact ⟨fun _ _ h => absurd h (Nat.not_lt_zero _), fun _ _ h => absurd h (Nat.not_lt_zero _),
      fun _ _ h => absurd h (Nat.not_lt_zero _)⟩
  | succ n ih =>
    obtain ⟨hvalue, hmembers, helements⟩ := ih
    exact ⟨parseValue_succ hmembers helements, parseMembers_succ hvalue hmembers, parseElements_succ hvalue helements⟩

/-- Enough fuel is as good as any. -/
theorem parseValue_fuel {n m : Nat} {cs : Text} (h : 2 * cs.length < n) (hm : n ≤ m) (room : Nat) :
    parseValue m room cs = parseValue n room cs := by
  induction m, hm using Nat.le_induction with
  | base => rfl
  | succ m hle ih => rw [(parse_succ m).1 room cs (by omega), ih]

/-- **The fuel of `loads` is enough**: more of it changes nothing. -/
theorem loads_fuel {n : Nat} {cs : Text} (h : 2 * cs.length + 1 ≤ n) (depth : Nat) :
    parseValue n (depth + 1) (skipSpace cs) = parseValue (2 * cs.length + 1) (depth + 1) (skipSpace cs) :=
  parseValue_fuel (by have := length_skipSpace_le cs; omega) h _

end Json

end MasResearch
