import Mathlib.Tactic.IntervalCases
import MasResearch.Core.Dict
import MasResearch.Core.Text

/-!
# JSON

`Json.dumps` writes a value the way `json.dumps(value, ensure_ascii=False)` does: only the
quote, the backslash and the code points below U+0020 are escaped. `loads` is
`json.loads`: it fails with a `JSONDecodeError`, or with a `Fault` where an integer is too
long or a container too deep. The number of a float literal is not computed. A `\u` escape
of an unpaired surrogate gives a string that `Text` cannot hold; `Fault.surrogate` marks
such a text, and what becomes of it is left open. The fuel is enough (`Core.JsonFuel`).

A writer and a reader that agree on lines have to ask what a dumped text contains:

* `loads_dumps`: an object of scalars comes back.
* `dumps_unbroken`: its text is one line unless a key or a string has one of `separators`,
  the line breaks from U+0020 on.
* `dumps_cut`: if one has, the text up to the first of them is no JSON value, as it ends
  inside a string.
-/
namespace MasResearch

/-- `sys.int_info.default_max_str_digits`. -/
def Json.maxStrDigits : Nat := 4300

/-- The integers with no more digits than that: no other is read or written. -/
def Json.Integer : Type := {n : Int // (Nat.toDigits 10 n.natAbs).length ≤ Json.maxStrDigits}

inductive Json where
  | null
  | bool (b : Bool)
  | int (n : Json.Integer)
  | float (literal : Text)
  | str (s : Text)
  | arr (xs : List Json)
  | obj (items : List (Text × Json))

namespace Json

/-! ## Writing -/

def hexDigit (n : Nat) : Char := "0123456789abcdef".toList.getD n '0'

/-- A code point inside a string literal. -/
def escapeChar (c : Char) : Text :=
  if c = '"' then ['\\', '"']
  else if c = '\\' then ['\\', '\\']
  else if c = '\n' then ['\\', 'n']
  else if c = '\r' then ['\\', 'r']
  else if c = '\t' then ['\\', 't']
  else if c = '\x0c' then ['\\', 'f']
  else if c = '\x08' then ['\\', 'b']
  else if c.toNat < 0x20 then ['\\', 'u', '0', '0', hexDigit (c.toNat / 16), hexDigit (c.toNat % 16)]
  else [c]

def escape (s : Text) : Text := s.flatMap escapeChar

def quote (s : Text) : Text := '"' :: (escape s ++ ['"'])

def intText : Int → Text
  | .ofNat n => Nat.toDigits 10 n
  | .negSucc n => '-' :: Nat.toDigits 10 (n + 1)

mutual

/-- `json.dumps(value, ensure_ascii=False)`. -/
def dumps : Json → Text
  | .null => "null".toList
  | .bool true => "true".toList
  | .bool false => "false".toList
  | .int n => intText n.1
  | .float literal => literal
  | .str s => quote s
  | .arr xs => '[' :: (dumpsElements xs ++ [']'])
  | .obj items => '{' :: (dumpsItems items ++ ['}'])

def dumpsElements : List Json → Text
  | [] => []
  | x :: xs => dumps x ++ (if xs.isEmpty then [] else [',', ' ']) ++ dumpsElements xs

def dumpsItems : List (Text × Json) → Text
  | [] => []
  | (key, value) :: items =>
    quote key ++ [':', ' '] ++ dumps value ++ (if items.isEmpty then [] else [',', ' ']) ++ dumpsItems items

end

theorem dumps_null : dumps .null = ['n', 'u', 'l', 'l'] := rfl

theorem dumps_true : dumps (.bool true) = ['t', 'r', 'u', 'e'] := rfl

theorem dumps_false : dumps (.bool false) = ['f', 'a', 'l', 's', 'e'] := rfl

theorem dumps_int (n : Integer) : dumps (.int n) = intText n.1 := rfl

theorem dumps_str (s : Text) : dumps (.str s) = quote s := rfl

theorem dumps_obj (items : List (Text × Json)) : dumps (.obj items) = '{' :: (dumpsItems items ++ ['}']) := rfl

/-! ## Reading -/

/-- What `json.loads` may do besides raising its `JSONDecodeError`. -/
inductive Fault where
  /-- An integer has too many digits. -/
  | valueError
  /-- Too many containers are open. -/
  | recursionError
  /-- Nothing is raised: an unpaired surrogate is part of a string from here on. -/
  | surrogate
  deriving DecidableEq, Repr

inductive Failure where
  | jsonDecodeError
  | fault (f : Fault)
  deriving DecidableEq, Repr

def isJsonSpace (c : Char) : Bool := c = ' ' ∨ c = '\t' ∨ c = '\n' ∨ c = '\r'

def skipSpace (cs : Text) : Text := cs.dropWhile isJsonSpace

def hexValue (c : Char) : Option Nat :=
  if '0' ≤ c ∧ c ≤ '9' then some (c.toNat - '0'.toNat)
  else if 'a' ≤ c ∧ c ≤ 'f' then some (c.toNat - 'a'.toNat + 10)
  else if 'A' ≤ c ∧ c ≤ 'F' then some (c.toNat - 'A'.toNat + 10)
  else none

/-- Four hexadecimal digits. -/
def scanUnit : Text → Except Failure (Nat × Text)
  | a :: b :: c :: d :: cs =>
    match hexValue a, hexValue b, hexValue c, hexValue d with
    | some a, some b, some c, some d => .ok (((a * 16 + b) * 16 + c) * 16 + d, cs)
    | _, _, _, _ => .error .jsonDecodeError
  | _ => .error .jsonDecodeError

/-- The code point of a `\u` escape, whose `u` was read; two surrogates make one. -/
def scanUnicode (cs : Text) : Except Failure (Char × Text) :=
  match scanUnit cs with
  | .error e => .error e
  | .ok (u, rest) =>
    if 0xD800 ≤ u ∧ u < 0xDC00 then
      match rest with
      | '\\' :: 'u' :: rest =>
        match scanUnit rest with
        | .ok (v, rest) =>
          if 0xDC00 ≤ v ∧ v < 0xE000 then
            .ok (Char.ofNat (0x10000 + (u - 0xD800) * 0x400 + (v - 0xDC00)), rest)
          else .error (.fault .surrogate)
        | .error e => .error e
      | _ => .error (.fault .surrogate)
    else if 0xDC00 ≤ u ∧ u < 0xE000 then .error (.fault .surrogate)
    else .ok (Char.ofNat u, rest)

/-- What follows a backslash. -/
def scanEscape : Text → Except Failure (Char × Text)
  | '"' :: cs => .ok ('"', cs)
  | '\\' :: cs => .ok ('\\', cs)
  | '/' :: cs => .ok ('/', cs)
  | 'b' :: cs => .ok ('\x08', cs)
  | 'f' :: cs => .ok ('\x0c', cs)
  | 'n' :: cs => .ok ('\n', cs)
  | 'r' :: cs => .ok ('\r', cs)
  | 't' :: cs => .ok ('\t', cs)
  | 'u' :: cs => scanUnicode cs
  | _ => .error .jsonDecodeError

/-- A string literal whose opening quote was read, and what follows it. -/
def scanString : Nat → Text → Except Failure (Text × Text)
  | 0, _ => .error .jsonDecodeError
  | _, [] => .error .jsonDecodeError
  | n + 1, c :: cs =>
    if c = '"' then .ok ([], cs)
    else if c = '\\' then
      match scanEscape cs with
      | .ok (c, cs) => (scanString n cs).map fun p => (c :: p.1, p.2)
      | .error e => .error e
    else if c.toNat < 0x20 then .error .jsonDecodeError
    else (scanString n cs).map fun p => (c :: p.1, p.2)

/-- `0` or digits without a leading zero. -/
def scanDigits : Text → Text × Text
  | '0' :: cs => (['0'], cs)
  | cs => (cs.takeWhile Char.isDigit, cs.dropWhile Char.isDigit)

/-- `.` and digits, or nothing. -/
def scanFraction : Text → Text × Text
  | '.' :: cs => if (cs.takeWhile Char.isDigit).isEmpty then ([], '.' :: cs)
    else ('.' :: cs.takeWhile Char.isDigit, cs.dropWhile Char.isDigit)
  | cs => ([], cs)

def scanSign : Text → Text × Text
  | '+' :: cs => (['+'], cs)
  | '-' :: cs => (['-'], cs)
  | cs => ([], cs)

/-- `e`, a sign and digits, or nothing. -/
def scanExponent : Text → Text × Text
  | [] => ([], [])
  | c :: cs =>
    let (sign, digits) := scanSign cs
    if (c = 'e' ∨ c = 'E') ∧ ¬ (digits.takeWhile Char.isDigit).isEmpty then
      (c :: sign ++ digits.takeWhile Char.isDigit, digits.dropWhile Char.isDigit)
    else ([], c :: cs)

def scanMinus : Text → Text × Text
  | '-' :: cs => (['-'], cs)
  | cs => ([], cs)

/-- `int(literal)`; the literal has no leading zero, so its digits are those of the number. -/
def integer (n : Int) : Except Failure Integer :=
  if h : (Nat.toDigits 10 n.natAbs).length ≤ maxStrDigits then .ok ⟨n, h⟩ else .error (.fault .valueError)

def scanNumber (cs : Text) : Except Failure (Json × Text) :=
  let (sign, rest) := scanMinus cs
  let (digits, rest) := scanDigits rest
  if digits.isEmpty then .error .jsonDecodeError
  else
    let (fraction, rest) := scanFraction rest
    let (exponent, rest) := scanExponent rest
    if fraction.isEmpty ∧ exponent.isEmpty then
      let n : Int := Nat.ofDigitChars 10 digits 0
      (integer (if sign.isEmpty then n else -n)).map fun n => (.int n, rest)
    else .ok (.float (sign ++ digits ++ fraction ++ exponent), rest)

/-- The literals that are words. -/
def wordValues : List (Text × Json) :=
  [("null".toList, .null), ("true".toList, .bool true), ("false".toList, .bool false),
    ("NaN".toList, .float "NaN".toList), ("Infinity".toList, .float "Infinity".toList),
    ("-Infinity".toList, .float "-Infinity".toList)]

def scanWord (cs : Text) : Option (Json × Text) :=
  wordValues.findSome? fun word => (cs.dropPrefix? word.1).map fun rest => (word.2, rest)

mutual

/-- One value, in which `room` containers may be open, and what follows it. -/
def parseValue : Nat → Nat → Text → Except Failure (Json × Text)
  | 0, _, _ => .error .jsonDecodeError
  | _, _, [] => .error .jsonDecodeError
  | n + 1, room, c :: cs =>
    if c = '"' then (scanString (cs.length + 1) cs).map fun p => (.str p.1, p.2)
    else if c = '{' then
      match room with
      | 0 => .error (.fault .recursionError)
      | room + 1 =>
        match skipSpace cs with
        | '}' :: rest => .ok (.obj [], rest)
        | rest => (parseMembers n room rest).map fun p => (.obj (Dict.ofPairs p.1).entries, p.2)
    else if c = '[' then
      match room with
      | 0 => .error (.fault .recursionError)
      | room + 1 =>
        match skipSpace cs with
        | ']' :: rest => .ok (.arr [], rest)
        | rest => (parseElements n room rest).map fun p => (.arr p.1, p.2)
    else match scanWord (c :: cs) with
      | some p => .ok p
      | none => scanNumber (c :: cs)

/-- The members of an object from the first key on, and what follows the closing brace. -/
def parseMembers : Nat → Nat → Text → Except Failure (List (Text × Json) × Text)
  | 0, _, _ => .error .jsonDecodeError
  | n + 1, room, cs =>
    match cs with
    | '"' :: cs =>
      match scanString (cs.length + 1) cs with
      | .error e => .error e
      | .ok (key, cs) =>
        match skipSpace cs with
        | ':' :: cs =>
          match parseValue n room (skipSpace cs) with
          | .error e => .error e
          | .ok (value, cs) =>
            match skipSpace cs with
            | '}' :: cs => .ok ([(key, value)], cs)
            | ',' :: cs => (parseMembers n room (skipSpace cs)).map fun p => ((key, value) :: p.1, p.2)
            | _ => .error .jsonDecodeError
        | _ => .error .jsonDecodeError
    | _ => .error .jsonDecodeError

/-- The elements of an array from the first one on, and what follows the closing bracket. -/
def parseElements : Nat → Nat → Text → Except Failure (List Json × Text)
  | 0, _, _ => .error .jsonDecodeError
  | n + 1, room, cs =>
    match parseValue n room cs with
    | .error e => .error e
    | .ok (value, cs) =>
      match skipSpace cs with
      | ']' :: cs => .ok ([value], cs)
      | ',' :: cs => (parseElements n room (skipSpace cs)).map fun p => (value :: p.1, p.2)
      | _ => .error .jsonDecodeError

end

/-- `json.loads`; the interpreter lets `depth` containers be open around another one. -/
def loads (depth : Nat) (cs : Text) : Except Failure Json :=
  match parseValue (2 * cs.length + 1) (depth + 1) (skipSpace cs) with
  | .ok (value, rest) => if (skipSpace rest).isEmpty then .ok value else .error .jsonDecodeError
  | .error e => .error e

/-- `dict(pairs).get(key)` on an object: the last pair of a key counts. -/
def get? : Json → Text → Option Json
  | .obj items, key => items.reverse.lookup key
  | _, _ => none

/-! ## Strings -/

theorem scanEscape_control : ∀ k < 0x20, ∀ t : Text,
    scanEscape ('u' :: '0' :: '0' :: hexDigit (k / 16) :: hexDigit (k % 16) :: t) = .ok (Char.ofNat k, t) := by
  intro k hk t
  interval_cases k <;> rfl

/-- A code point becomes an escape of two characters that the reader takes back, the code of
a control character, or stays. -/
theorem escapeChar_cases (c : Char) :
    (∃ e ∈ ['"', '\\', 'n', 'r', 't', 'f', 'b'], escapeChar c = ['\\', e] ∧ ∀ t, scanEscape (e :: t) = .ok (c, t)) ∨
    (c.toNat < 0x20 ∧
      escapeChar c = ['\\', 'u', '0', '0', hexDigit (c.toNat / 16), hexDigit (c.toNat % 16)]) ∨
    (c ≠ '"' ∧ c ≠ '\\' ∧ ¬ c.toNat < 0x20 ∧ escapeChar c = [c]) := by
  by_cases h1 : c = '"'
  · exact .inl ⟨'"', by decide, by rw [h1]; rfl, by rw [h1]; exact fun _ => rfl⟩
  by_cases h2 : c = '\\'
  · exact .inl ⟨'\\', by decide, by rw [h2]; rfl, by rw [h2]; exact fun _ => rfl⟩
  by_cases h3 : c = '\n'
  · exact .inl ⟨'n', by decide, by rw [h3]; rfl, by rw [h3]; exact fun _ => rfl⟩
  by_cases h4 : c = '\r'
  · exact .inl ⟨'r', by decide, by rw [h4]; rfl, by rw [h4]; exact fun _ => rfl⟩
  by_cases h5 : c = '\t'
  · exact .inl ⟨'t', by decide, by rw [h5]; rfl, by rw [h5]; exact fun _ => rfl⟩
  by_cases h6 : c = '\x0c'
  · exact .inl ⟨'f', by decide, by rw [h6]; rfl, by rw [h6]; exact fun _ => rfl⟩
  by_cases h7 : c = '\x08'
  · exact .inl ⟨'b', by decide, by rw [h7]; rfl, by rw [h7]; exact fun _ => rfl⟩
  rw [escapeChar, if_neg h1, if_neg h2, if_neg h3, if_neg h4, if_neg h5, if_neg h6, if_neg h7]
  by_cases h8 : c.toNat < 0x20
  · exact .inr (.inl ⟨h8, if_pos h8⟩)
  · exact .inr (.inr ⟨h1, h2, h8, if_neg h8⟩)

/-- What the writer makes of a code point, the reader takes back. -/
theorem scanString_escapeChar (n : Nat) (c : Char) (t : Text) :
    scanString (n + 1) (escapeChar c ++ t) = (scanString n t).map fun p => (c :: p.1, p.2) := by
  rcases escapeChar_cases c with ⟨e, -, he, hread⟩ | ⟨hlt, he⟩ | ⟨hquote, hslash, hlt, he⟩
  · rw [he]
    simp only [List.cons_append, List.nil_append, scanString, hread]
    rfl
  · have hc := scanEscape_control c.toNat hlt t
    rw [Char.ofNat_toNat] at hc
    rw [he]
    simp only [List.cons_append, List.nil_append, scanString, hc]
    rfl
  · rw [he]
    simp only [List.cons_append, List.nil_append, scanString, if_neg hquote, if_neg hslash, if_neg hlt]

theorem scanString_escape : ∀ {s : Text} {n : Nat}, s.length < n → ∀ t : Text,
    scanString n (escape s ++ '"' :: t) = .ok (s, t)
  | [], n + 1, _, t => by simp [escape, scanString]
  | c :: s, n + 1, h, t => by
    have ih := scanString_escape (s := s) (n := n) (by simpa using h) t
    rw [escape, List.flatMap_cons, List.append_assoc, scanString_escapeChar]
    rw [escape] at ih
    rw [ih]
    rfl

/-- Without its closing quote a string is not read. -/
theorem scanString_cut : ∀ (s : Text) (n : Nat), scanString n (escape s) = .error .jsonDecodeError
  | _, 0 => by rw [scanString]
  | [], n + 1 => rfl
  | c :: s, n + 1 => by
    have ih := scanString_cut s n
    rw [escape] at ih
    rw [escape, List.flatMap_cons, scanString_escapeChar, ih]
    rfl

/-! ## Numbers -/

theorem toDigits_head {n : Nat} (h : 0 < n) : ∃ d ds, Nat.toDigits 10 n = d :: ds ∧ d ≠ '0' := by
  induction n using Nat.strongRecOn with
  | ind n ih =>
    rcases Nat.lt_or_ge n 10 with hlt | hge
    · refine ⟨n.digitChar, [], Nat.toDigits_of_lt_base hlt, ?_⟩
      interval_cases n <;> decide
    · obtain ⟨d, ds, hd, hne⟩ := ih (n / 10) (by omega) (by omega)
      rw [Nat.toDigits_of_base_le (by decide) hge, hd]
      exact ⟨d, _, rfl, hne⟩

/-- What follows is no part of a number. -/
def Delimits (t : Text) : Prop := ∃ t', t = ',' :: t' ∨ t = '}' :: t'

theorem Delimits.takeWhile {t : Text} (h : Delimits t) {p : Char → Bool} (hc : p ',' = false) (hb : p '}' = false) :
    t.takeWhile p = [] ∧ t.dropWhile p = t := by
  obtain ⟨t', rfl | rfl⟩ := h <;> simp [hc, hb]

theorem scanDigits_toDigits (n : Nat) {t : Text} (ht : Delimits t) :
    scanDigits (Nat.toDigits 10 n ++ t) = (Nat.toDigits 10 n, t) := by
  rcases Nat.eq_zero_or_pos n with rfl | hn
  · rfl
  obtain ⟨d, ds, hd, hne⟩ := toDigits_head hn
  have hall : ∀ c ∈ Nat.toDigits 10 n, c.isDigit = true := fun c hc =>
    Nat.isDigit_of_mem_toDigits (by decide) (by decide) hc
  have hscan : scanDigits (Nat.toDigits 10 n ++ t) =
      ((Nat.toDigits 10 n ++ t).takeWhile Char.isDigit, (Nat.toDigits 10 n ++ t).dropWhile Char.isDigit) := by
    rw [hd, List.cons_append, scanDigits]
    rintro cs ⟨rfl, -⟩
    exact hne rfl
  obtain ⟨htake, hdrop⟩ := ht.takeWhile (p := Char.isDigit) (by decide) (by decide)
  rw [hscan, List.takeWhile_append_of_pos hall, List.dropWhile_append_of_pos hall, htake, hdrop, List.append_nil]

theorem scanMinus_toDigits (n : Nat) (t : Text) :
    scanMinus (Nat.toDigits 10 n ++ t) = ([], Nat.toDigits 10 n ++ t) := by
  cases hd : Nat.toDigits 10 n with
  | nil => exact absurd hd Nat.toDigits_ne_nil
  | cons d ds =>
    have hdigit : d.isDigit = true :=
      Nat.isDigit_of_mem_toDigits (n := n) (b := 10) (by decide) (by decide) (by rw [hd]; exact List.mem_cons_self)
    rw [List.cons_append, scanMinus]
    rintro cs ⟨rfl, -⟩
    revert hdigit; decide

theorem integer_val (i : Integer) : integer i.1 = .ok i := dif_pos i.2

theorem scanNumber_intText (i : Integer) {t : Text} (ht : Delimits t) :
    scanNumber (intText i.1 ++ t) = .ok (.int i, t) := by
  have hexp : scanFraction t = ([], t) ∧ scanExponent t = ([], t) := by
    obtain ⟨t', rfl | rfl⟩ := ht <;> exact ⟨rfl, by simp [scanExponent]⟩
  have hne : ∀ n, (Nat.toDigits 10 n).isEmpty = false := fun n => by simp [Nat.toDigits_ne_nil]
  have hval := integer_val i
  obtain ⟨i, hi⟩ := i
  cases i with
  | ofNat n =>
    simp [scanNumber, intText, scanMinus_toDigits, scanDigits_toDigits n ht, hexp.1, hexp.2] at hval ⊢
    rw [hval]
    rfl
  | negSucc n =>
    have hminus : scanMinus ('-' :: (Nat.toDigits 10 (n + 1) ++ t)) = (['-'], Nat.toDigits 10 (n + 1) ++ t) := rfl
    simp [scanNumber, intText, hminus, scanDigits_toDigits (n + 1) ht, hexp.1, hexp.2, Int.negSucc_eq] at hval ⊢
    rw [hval]
    rfl

/-! ## Scalars -/

def Scalar : Json → Prop
  | .null | .bool _ | .int _ | .str _ => True
  | .float _ | .arr _ | .obj _ => False

theorem ne_of_isDigit {c d : Char} (hc : c.isDigit = true) (hd : d.isDigit = false) : c ≠ d := by
  rintro rfl; rw [hc] at hd; cases hd

theorem scanWord_digit {c : Char} (hc : c.isDigit = true) (cs : Text) : scanWord (c :: cs) = none := by
  have h := fun d => ne_of_isDigit (d := d) hc
  simp [scanWord, wordValues, List.dropPrefix?, h 'n' rfl, h 't' rfl, h 'f' rfl, h 'N' rfl, h 'I' rfl, h '-' rfl]

theorem scanWord_minus {c : Char} (hc : c.isDigit = true) (cs : Text) : scanWord ('-' :: c :: cs) = none := by
  have h := ne_of_isDigit (d := 'I') hc rfl
  simp [scanWord, wordValues, List.dropPrefix?, h]

variable {room : Nat}

theorem parseValue_number {c : Char} {cs : Text} (n : Nat) (h1 : c ≠ '"') (h2 : c ≠ '{') (h3 : c ≠ '[')
    (hw : scanWord (c :: cs) = none) : parseValue (n + 1) room (c :: cs) = scanNumber (c :: cs) := by
  simp only [parseValue, if_neg h1, if_neg h2, if_neg h3, hw]

theorem parseValue_int (i : Integer) (n : Nat) {t : Text} (ht : Delimits t) :
    parseValue (n + 1) room (intText i.1 ++ t) = .ok (.int i, t) := by
  have hdigit : ∀ {m : Nat} {d : Char} {ds : Text}, Nat.toDigits 10 m = d :: ds → d.isDigit = true :=
    fun {m _ _} h => Nat.isDigit_of_mem_toDigits (n := m) (b := 10) (by decide) (by decide)
      (by rw [h]; exact List.mem_cons_self)
  rw [← scanNumber_intText i ht]
  cases i.1 with
  | ofNat m =>
    rw [intText]
    cases hd : Nat.toDigits 10 m with
    | nil => exact absurd hd Nat.toDigits_ne_nil
    | cons d ds =>
      have h := fun e => ne_of_isDigit (d := e) (hdigit hd)
      exact parseValue_number n (h '"' rfl) (h '{' rfl) (h '[' rfl) (scanWord_digit (hdigit hd) _)
  | negSucc m =>
    rw [intText]
    cases hd : Nat.toDigits 10 (m + 1) with
    | nil => exact absurd hd Nat.toDigits_ne_nil
    | cons d ds => exact parseValue_number n (by decide) (by decide) (by decide) (scanWord_minus (hdigit hd) _)

theorem escapeChar_ne_nil (c : Char) : escapeChar c ≠ [] := by
  rcases escapeChar_cases c with ⟨e, -, he, -⟩ | ⟨-, he⟩ | ⟨-, -, -, he⟩
  · rw [he]; exact List.cons_ne_nil _ _
  · rw [he]; exact List.cons_ne_nil _ _
  · rw [he]; exact List.cons_ne_nil _ _

theorem length_le_escape (s : Text) : s.length ≤ (escape s).length := by
  induction s with
  | nil => simp
  | cons c s ih =>
    have h1 : 0 < (escapeChar c).length := List.length_pos_iff.mpr (escapeChar_ne_nil c)
    rw [escape, List.flatMap_cons, List.length_append, List.length_cons]
    rw [escape] at ih
    omega

theorem scanString_quote (s t : Text) :
    scanString ((escape s ++ '"' :: t).length + 1) (escape s ++ '"' :: t) = .ok (s, t) := by
  refine scanString_escape ?_ t
  have := length_le_escape s
  simp only [List.length_append]
  omega

theorem parseValue_scalar {v : Json} (hv : v.Scalar) (n : Nat) {t : Text} (ht : Delimits t) :
    parseValue (n + 1) room (dumps v ++ t) = .ok (v, t) := by
  cases v with
  | null => simp [dumps_null, parseValue, scanWord, wordValues, List.dropPrefix?]
  | bool b => cases b <;> simp [dumps_true, dumps_false, parseValue, scanWord, wordValues, List.dropPrefix?]
  | int i => exact parseValue_int i n ht
  | str s =>
    have h := scanString_quote s t
    simp only [dumps_str, quote, List.cons_append, List.append_assoc, List.nil_append, parseValue, if_true, h,
      Except.map]
  | float => exact absurd hv id
  | arr => exact absurd hv id
  | obj => exact absurd hv id

/-! ## Objects of scalars -/

/-- A text that starts with no space. -/
def Tight (cs : Text) : Prop := skipSpace cs = cs

theorem tight_cons {c : Char} (hc : isJsonSpace c = false) (cs : Text) : Tight (c :: cs) := by
  simp [Tight, skipSpace, hc]

theorem tight_scalar {v : Json} (hv : v.Scalar) (t : Text) : Tight (dumps v ++ t) := by
  cases v with
  | null => exact tight_cons rfl _
  | bool b => cases b <;> exact tight_cons rfl _
  | int i =>
    rw [dumps_int]
    cases i.1 with
    | ofNat m =>
      rw [intText]
      cases hd : Nat.toDigits 10 m with
      | nil => exact absurd hd Nat.toDigits_ne_nil
      | cons d ds =>
        have hdigit : d.isDigit = true := Nat.isDigit_of_mem_toDigits (n := m) (b := 10) (by decide) (by decide)
          (by rw [hd]; exact List.mem_cons_self)
        have h := fun e => ne_of_isDigit (d := e) hdigit
        exact tight_cons (by simp [isJsonSpace, h ' ' rfl, h '\t' rfl, h '\n' rfl, h '\r' rfl]) _
    | negSucc m => exact tight_cons rfl _
  | str s => exact tight_cons rfl _
  | float => exact absurd hv id
  | arr => exact absurd hv id
  | obj => exact absurd hv id

theorem tight_quote (key t : Text) : Tight (quote key ++ t) := tight_cons rfl _

/-- The key of a member is read, and its value is next. -/
theorem parseMembers_member (n : Nat) (key : Text) {w : Text} (hw : Tight w) :
    parseMembers (n + 1) room (quote key ++ ([':', ' '] ++ w)) =
      match parseValue n room w with
      | .error e => .error e
      | .ok (value, cs) =>
        match skipSpace cs with
        | '}' :: cs => .ok ([(key, value)], cs)
        | ',' :: cs => (parseMembers n room (skipSpace cs)).map fun p => ((key, value) :: p.1, p.2)
        | _ => .error .jsonDecodeError := by
  have h := scanString_quote key ([':', ' '] ++ w)
  have hcolon : skipSpace ([':', ' '] ++ w) = ':' :: ' ' :: w := rfl
  have hspace : skipSpace (' ' :: w) = w := hw
  simp only [quote, List.cons_append, List.append_assoc, List.nil_append] at h hcolon ⊢
  rw [parseMembers]
  simp only [h, hcolon, hspace]

theorem parseMembers_cons (n : Nat) (key : Text) {v : Json} (hv : v.Scalar) {tail : Text} (ht : Tight tail) :
    parseMembers (n + 2) room (quote key ++ ([':', ' '] ++ (dumps v ++ ',' :: ' ' :: tail))) =
      (parseMembers (n + 1) room tail).map fun p => ((key, v) :: p.1, p.2) := by
  have hspace : skipSpace (' ' :: tail) = tail := ht
  have hcomma : skipSpace (',' :: ' ' :: tail) = ',' :: ' ' :: tail := rfl
  rw [parseMembers_member (n + 1) key (tight_scalar hv _), parseValue_scalar hv n ⟨_, .inl rfl⟩]
  simp only [hcomma, hspace]

theorem parseMembers_last (n : Nat) (key : Text) {v : Json} (hv : v.Scalar) (t : Text) :
    parseMembers (n + 2) room (quote key ++ ([':', ' '] ++ (dumps v ++ '}' :: t))) = .ok ([(key, v)], t) := by
  have hbrace : skipSpace ('}' :: t) = '}' :: t := rfl
  rw [parseMembers_member (n + 1) key (tight_scalar hv _), parseValue_scalar hv n ⟨_, .inr rfl⟩]
  simp only [hbrace]

theorem dumpsItems_cons (key : Text) (v : Json) (items : List (Text × Json)) (t : Text) :
    dumpsItems ((key, v) :: items) ++ t =
      quote key ++
        ([':', ' '] ++ (dumps v ++ ((if items.isEmpty then [] else [',', ' ']) ++ (dumpsItems items ++ t)))) := by
  simp only [dumpsItems, List.append_assoc]

theorem tight_dumpsItems {items : List (Text × Json)} (h : items ≠ []) (t : Text) : Tight (dumpsItems items ++ t) := by
  obtain ⟨⟨key, v⟩, items, rfl⟩ := List.exists_cons_of_ne_nil h
  rw [dumpsItems_cons]
  exact tight_quote key _

theorem parseMembers_dumpsItems : ∀ {items : List (Text × Json)}, items ≠ [] → (∀ p ∈ items, p.2.Scalar) →
    ∀ {n : Nat}, items.length < n → ∀ t, parseMembers n room (dumpsItems items ++ '}' :: t) = .ok (items, t)
  | [], h, _, _, _, _ => absurd rfl h
  | [(key, v)], _, hs, n + 2, _, t => by
    rw [dumpsItems_cons]
    exact parseMembers_last n key (hs _ List.mem_cons_self) t
  | (key, v) :: item :: items, _, hs, n + 2, hn, t => by
    rw [List.forall_mem_cons] at hs
    have ih := parseMembers_dumpsItems (List.cons_ne_nil item items) hs.2 (n := n + 1)
      (by simpa using hn) t
    rw [dumpsItems_cons]
    refine (parseMembers_cons n key hs.1 (tight_dumpsItems (by simp) _)).trans ?_
    rw [ih]
    rfl

theorem length_le_dumpsItems : ∀ items : List (Text × Json), items.length ≤ (dumpsItems items).length
  | [] => Nat.zero_le _
  | (key, v) :: items => by
    have ih := length_le_dumpsItems items
    simp only [dumpsItems, quote, List.length_append, List.length_cons]
    omega

/-- **Round trip.** -/
theorem loads_dumps {items : List (Text × Json)} (hk : (items.map Prod.fst).Nodup) (hs : ∀ p ∈ items, p.2.Scalar)
    (depth : Nat) : loads depth (dumps (.obj items)) = .ok (.obj items) := by
  have hskip : skipSpace (dumps (.obj items)) = dumps (.obj items) := by
    rw [dumps_obj]; exact tight_cons rfl _
  rw [loads, hskip]
  rcases List.eq_nil_or_concat items with rfl | ⟨_, _, hc⟩
  · rfl
  have hne : items ≠ [] := by rw [hc]; simp
  have hlen := length_le_dumpsItems items
  have hmembers : parseMembers (2 * (dumps (.obj items)).length) depth (dumpsItems items ++ ['}']) = .ok (items, []) :=
    parseMembers_dumpsItems hne hs (by simp only [dumps_obj, List.length_cons, List.length_append]; omega) []
  have hfirst : skipSpace (dumpsItems items ++ ['}']) = dumpsItems items ++ ['}'] := tight_dumpsItems hne _
  have hopen : ∀ rest, dumpsItems items ++ ['}'] ≠ '}' :: rest := by
    obtain ⟨⟨key, v⟩, rest', rfl⟩ := List.exists_cons_of_ne_nil hne
    intro rest h
    rw [dumpsItems_cons, quote] at h
    simp at h
  have hvalue : parseValue (2 * (dumps (.obj items)).length + 1) (depth + 1) (dumps (.obj items)) =
      .ok (.obj items, []) := by
    conv_lhs => arg 3; rw [dumps_obj]
    rw [parseValue, if_neg (by decide), if_pos rfl]
    simp only [hfirst, hmembers, Except.map, Dict.entries_ofPairs hk]
  rw [hvalue]
  rfl

/-! ## The lines of a dumped object -/

/-- The line breaks the writer leaves in a string. -/
def separators : List Char := ['\u0085', '\u2028', '\u2029']

def Unbroken (s : Text) : Prop := ∀ c ∈ s, c ∉ separators

instance (s : Text) : Decidable (Unbroken s) := List.decidableBAll (fun c => c ∉ separators) s

/-- No string among the scalars has a separator. -/
def OneLine : Json → Prop
  | .str s => Unbroken s
  | _ => True

theorem hexDigit_not_break (n : Nat) : hexDigit n ∉ lineBreaks := by
  rcases Nat.lt_or_ge n 16 with h | h
  · interval_cases n <;> decide
  · have hlen : "0123456789abcdef".toList.length ≤ n := h
    have hzero : hexDigit n = '0' := by rw [hexDigit, List.getD_eq_getElem?_getD, List.getElem?_eq_none hlen]; rfl
    rw [hzero]; decide

theorem separators_of_break {c : Char} (hc : c ∈ lineBreaks) (h : ¬ c.toNat < 0x20) : c ∈ separators := by
  simp only [lineBreaks, List.mem_cons, List.not_mem_nil, or_false] at hc
  rcases hc with rfl | rfl | rfl | rfl | rfl | rfl | rfl | rfl | rfl | rfl <;> revert h <;> decide

theorem not_break_of_isDigit {c : Char} (hc : c.isDigit = true) : c ∉ lineBreaks := by
  intro hb
  simp only [lineBreaks, List.mem_cons, List.not_mem_nil, or_false] at hb
  rcases hb with rfl | rfl | rfl | rfl | rfl | rfl | rfl | rfl | rfl | rfl <;> revert hc <;> decide

/-- The line breaks among what the writer makes of a code point. -/
theorem break_of_escapeChar {c x : Char} (hx : x ∈ escapeChar c) (hb : x ∈ lineBreaks) : x = c ∧ c ∈ separators := by
  have hslash : '\\' ∉ lineBreaks := by decide
  rcases escapeChar_cases c with ⟨e, hmem, he, -⟩ | ⟨-, he⟩ | ⟨-, -, hlt, he⟩
  · have hplain : e ∉ lineBreaks :=
      (forall_mem_of_all (by decide) : ∀ e ∈ ['"', '\\', 'n', 'r', 't', 'f', 'b'], e ∉ lineBreaks) e hmem
    have hall : ∀ y ∈ escapeChar c, y ∉ lineBreaks := by
      rw [he]
      simp only [List.forall_mem_cons, List.not_mem_nil, false_imp_iff, implies_true, and_true]
      exact ⟨hslash, hplain⟩
    exact absurd hb (hall x hx)
  · have hall : ∀ y ∈ escapeChar c, y ∉ lineBreaks := by
      rw [he]
      simp only [List.forall_mem_cons, List.not_mem_nil, false_imp_iff, implies_true, and_true]
      exact ⟨hslash, by decide, by decide, by decide, hexDigit_not_break _, hexDigit_not_break _⟩
    exact absurd hb (hall x hx)
  · rw [he] at hx
    obtain rfl := List.mem_singleton.mp hx
    exact ⟨rfl, separators_of_break hb hlt⟩

section

variable {P : Char → Prop}

/-- What holds of all code points but the line breaks, and of the separators in the string. -/
theorem forall_escape (hP : ∀ c ∉ lineBreaks, P c) {s : Text} (h : ∀ c ∈ s, c ∈ separators → P c) :
    ∀ x ∈ escape s, P x := by
  intro x hx
  obtain ⟨c, hc, hx⟩ := List.mem_flatMap.mp hx
  by_cases hb : x ∈ lineBreaks
  · obtain ⟨rfl, hsep⟩ := break_of_escapeChar hx hb
    exact h x hc hsep
  · exact hP x hb

theorem forall_quote (hP : ∀ c ∉ lineBreaks, P c) {s : Text} (h : ∀ c ∈ s, c ∈ separators → P c) :
    ∀ x ∈ quote s, P x := by
  have hend : P '"' := hP _ (by decide)
  simp only [quote, List.forall_mem_cons, List.forall_mem_append, List.not_mem_nil, false_imp_iff, implies_true,
    and_true]
  exact ⟨hend, forall_escape hP h, hend⟩

theorem forall_scalar (hP : ∀ c ∉ lineBreaks, P c) {v : Json} (hv : v.Scalar)
    (h : v.OneLine ∨ ∀ c ∈ separators, P c) : ∀ x ∈ dumps v, P x := by
  have hdigits : ∀ n, ∀ c ∈ Nat.toDigits 10 n, P c := fun n c hc =>
    hP c (not_break_of_isDigit (Nat.isDigit_of_mem_toDigits (by decide) (by decide) hc))
  have hword : ∀ word : Text, (∀ c ∈ word, c ∉ lineBreaks) → ∀ c ∈ word, P c := fun _ hw c hc => hP c (hw c hc)
  cases v with
  | null => rw [dumps_null]; exact hword _ (forall_mem_of_all (by decide))
  | bool b =>
    cases b with
    | true => rw [dumps_true]; exact hword _ (forall_mem_of_all (by decide))
    | false => rw [dumps_false]; exact hword _ (forall_mem_of_all (by decide))
  | int i =>
    rw [dumps_int]
    cases i.1 with
    | ofNat n => exact hdigits n
    | negSucc n => exact List.forall_mem_cons.mpr ⟨hP _ (by decide), hdigits _⟩
  | str s => exact forall_quote hP fun c hc hsep => h.elim (fun h => absurd hsep (h c hc)) fun h => h c hsep
  | float => exact absurd hv id
  | arr => exact absurd hv id
  | obj => exact absurd hv id

theorem forall_member (hP : ∀ c ∉ lineBreaks, P c) {key : Text} (hk : Unbroken key) {w : Text} (hw : ∀ x ∈ w, P x) :
    ∀ x ∈ quote key ++ ([':', ' '] ++ w), P x := by
  simp only [List.forall_mem_append, List.forall_mem_cons, List.not_mem_nil, false_imp_iff, implies_true, and_true]
  exact ⟨forall_quote hP fun c hc hsep => absurd hsep (hk c hc), ⟨hP _ (by decide), hP _ (by decide)⟩, hw⟩

theorem forall_dumpsItems (hP : ∀ c ∉ lineBreaks, P c) : ∀ {items : List (Text × Json)},
    (∀ p ∈ items, Unbroken p.1 ∧ p.2.Scalar) → (∀ p ∈ items, p.2.OneLine) ∨ (∀ c ∈ separators, P c) →
    ∀ x ∈ dumpsItems items, P x
  | [], _, _ => by rw [dumpsItems]; simp
  | (key, v) :: items, hs, h => by
    rw [List.forall_mem_cons] at hs
    rw [List.forall_mem_cons] at h
    have ih := forall_dumpsItems hP hs.2 (h.imp_left And.right)
    have hv := forall_scalar hP hs.1.2 (h.imp_left And.left)
    have hsep : ∀ x ∈ (if items.isEmpty then [] else [',', ' '] : Text), P x := by
      split
      · simp
      · simp only [List.forall_mem_cons, List.not_mem_nil, false_imp_iff, implies_true, and_true]
        exact ⟨hP _ (by decide), hP _ (by decide)⟩
    have hmember := forall_member hP hs.1.1
      (List.forall_mem_append.mpr ⟨hv, List.forall_mem_append.mpr ⟨hsep, ih⟩⟩)
    have heq := dumpsItems_cons key v items []
    rw [List.append_nil, List.append_nil] at heq
    rwa [heq]

theorem forall_dumps (hP : ∀ c ∉ lineBreaks, P c) {items : List (Text × Json)}
    (hs : ∀ p ∈ items, Unbroken p.1 ∧ p.2.Scalar) (h : (∀ p ∈ items, p.2.OneLine) ∨ ∀ c ∈ separators, P c) :
    ∀ x ∈ dumps (.obj items), P x := by
  simp only [dumps_obj, List.forall_mem_cons, List.forall_mem_append, List.not_mem_nil, false_imp_iff, implies_true,
    and_true]
  exact ⟨hP _ (by decide), forall_dumpsItems hP hs h, hP _ (by decide)⟩

end

/-- The text of an object is one line if its strings are. -/
theorem dumps_unbroken {items : List (Text × Json)} (hs : ∀ p ∈ items, Unbroken p.1 ∧ p.2.Scalar)
    (h : ∀ p ∈ items, p.2.OneLine) : ∀ c ∈ dumps (.obj items), c ∉ lineBreaks :=
  forall_dumps (fun _ h => h) hs (.inl h)

/-- No text of an object has a carriage return. -/
theorem return_not_mem_dumps {items : List (Text × Json)} (hs : ∀ p ∈ items, Unbroken p.1 ∧ p.2.Scalar) :
    '\r' ∉ dumps (.obj items) := by
  have hbreak : ∀ c ∉ lineBreaks, c ≠ '\r' := fun c hc he => hc (by rw [he]; decide)
  have hsep : ∀ c ∈ separators, c ≠ '\r' := forall_mem_of_all (by decide)
  exact fun h => forall_dumps hbreak hs (.inr hsep) _ h rfl

theorem escape_cut {s : Text} (h : ¬ Unbroken s) :
    ∃ a c b, escape s = escape a ++ c :: b ∧ Unbroken a ∧ c ∈ separators := by
  induction s with
  | nil => exact absurd (by simp [Unbroken]) h
  | cons c s ih =>
    by_cases hc : c ∈ separators
    · refine ⟨[], c, escape s, ?_, by simp [Unbroken], hc⟩
      have : escapeChar c = [c] := by
        simp only [separators, List.mem_cons, List.not_mem_nil, or_false] at hc
        rcases hc with rfl | rfl | rfl <;> rfl
      simp [escape, this]
    · have hs : ¬ Unbroken s := fun hs => h (List.forall_mem_cons.mpr ⟨hc, hs⟩)
      obtain ⟨a, d, b, he, ha, hd⟩ := ih hs
      refine ⟨c :: a, d, b, ?_, List.forall_mem_cons.mpr ⟨hc, ha⟩, hd⟩
      simp only [escape, List.flatMap_cons, List.append_assoc] at he ⊢
      rw [he]

/-- The text has no line break at all. -/
def IsLine (s : Text) : Prop := ∀ c ∈ s, c ∉ lineBreaks

/-- A member whose string is cut. -/
theorem parseMembers_cut (key a : Text) : ∀ n, parseMembers n room
    ('"' :: (escape key ++ ['"'] ++ ([':', ' '] ++ '"' :: escape a))) = .error .jsonDecodeError
  | 0 => by rw [parseMembers]
  | n + 1 => by
    have hnone : parseValue n room ('"' :: escape a) = .error .jsonDecodeError := by
      cases n with
      | zero => rfl
      | succ n => simp only [parseValue, if_true, scanString_cut, Except.map]
    refine (parseMembers_member n key (tight_cons rfl _)).trans ?_
    rw [hnone]

/-- A member before one that does not parse. -/
theorem parseMembers_before_cut (key : Text) {v : Json} (hv : v.Scalar) {a : Text}
    (h : ∀ n, parseMembers n room ('"' :: a) = .error .jsonDecodeError) : ∀ n, parseMembers n room
    ('"' :: (escape key ++ ['"'] ++ ([':', ' '] ++ (dumps v ++ ',' :: ' ' :: '"' :: a)))) = .error .jsonDecodeError
  | 0 => by rw [parseMembers]
  | 1 => by
    refine (parseMembers_member 0 key (tight_scalar hv _)).trans ?_
    rw [parseValue]
  | n + 2 => by
    refine (parseMembers_cons n key hv (tight_cons rfl a)).trans ?_
    rw [h]
    rfl

theorem exists_str_of_not_oneLine {v : Json} (h : ¬ v.OneLine) : ∃ s, v = .str s ∧ ¬ Unbroken s := by
  cases v with
  | str s => exact ⟨s, rfl, h⟩
  | _ => exact absurd trivial h

/-- Up to its first separator the text of the members is one line that does not parse. -/
theorem dumpsItems_cut : ∀ {items : List (Text × Json)}, (∀ p ∈ items, Unbroken p.1 ∧ p.2.Scalar) →
    (¬ ∀ p ∈ items, p.2.OneLine) → ∀ t, ∃ a c b, dumpsItems items ++ t = '"' :: a ++ c :: b ∧
      IsLine ('"' :: a) ∧ c ∈ separators ∧ ∀ n room, parseMembers n room ('"' :: a) = .error .jsonDecodeError
  | [], _, h, _ => absurd (by simp) h
  | (key, v) :: items, hs, h, t => by
    rw [List.forall_mem_cons] at hs
    obtain ⟨⟨hk, hsv⟩, hs⟩ := hs
    by_cases hv : v.OneLine
    · have hrest : ¬ ∀ p ∈ items, p.2.OneLine := fun hr => h (List.forall_mem_cons.mpr ⟨hv, hr⟩)
      have hne : items ≠ [] := by rintro rfl; exact hrest (by simp)
      obtain ⟨a, c, b, he, hline, hc, hparse⟩ := dumpsItems_cut hs hrest t
      refine ⟨escape key ++ ['"'] ++ ([':', ' '] ++ (dumps v ++ ',' :: ' ' :: '"' :: a)), c, b, ?_, ?_, hc,
        fun n room => parseMembers_before_cut key hsv (hparse · room) n⟩
      · have hsep : (if items.isEmpty then [] else [',', ' '] : Text) = [',', ' '] := by simp [hne]
        rw [dumpsItems_cons, hsep, he]
        simp [quote]
      · have hsep : ∀ c ∈ ([',', ' '] : Text), c ∉ lineBreaks := forall_mem_of_all (by decide)
        have hnext : ∀ c ∈ ([',', ' '] ++ '"' :: a : Text), c ∉ lineBreaks := List.forall_mem_append.mpr ⟨hsep, hline⟩
        exact forall_member (fun _ h => h) hk
          (List.forall_mem_append.mpr ⟨forall_scalar (fun _ h => h) hsv (.inl hv), hnext⟩)
    · -- the cut lies in the string of this member
      obtain ⟨s, rfl, hbroken⟩ := exists_str_of_not_oneLine hv
      obtain ⟨a, c, b, he, ha, hc⟩ := escape_cut hbroken
      refine ⟨escape key ++ ['"'] ++ ([':', ' '] ++ '"' :: escape a), c,
        b ++ '"' :: ((if items.isEmpty then [] else [',', ' ']) ++ (dumpsItems items ++ t)), ?_, ?_, hc,
        fun n _ => parseMembers_cut key a n⟩
      · rw [dumpsItems_cons, dumps_str]
        conv_lhs => arg 2; arg 2; arg 1; rw [quote, he]
        simp [quote]
      · exact forall_member (fun _ h => h) hk (List.forall_mem_cons.mpr
          ⟨by decide, forall_escape (fun _ h => h) fun c hc hsep => absurd hsep (ha c hc)⟩)

/-- **A separator cuts the object**: the line up to it is no JSON value. -/
theorem dumps_cut {items : List (Text × Json)} (hs : ∀ p ∈ items, Unbroken p.1 ∧ p.2.Scalar)
    (h : ¬ ∀ p ∈ items, p.2.OneLine) : ∃ a c b, dumps (.obj items) = a ++ c :: b ∧ IsLine a ∧ c ∈ separators ∧
      ∀ depth, loads depth a = .error .jsonDecodeError := by
  obtain ⟨a, c, b, he, hline, hc, hparse⟩ := dumpsItems_cut hs h ['}']
  refine ⟨'{' :: '"' :: a, c, b, by rw [dumps_obj, he]; rfl, ?_, hc, fun depth => ?_⟩
  · exact List.forall_mem_cons.mpr ⟨by decide, hline⟩
  · have hskip : skipSpace ('{' :: '"' :: a) = '{' :: '"' :: a := rfl
    have hskip' : skipSpace ('"' :: a) = '"' :: a := rfl
    have hvalue : ∀ n, parseValue n (depth + 1) ('{' :: '"' :: a) = .error .jsonDecodeError := by
      intro n
      cases n with
      | zero => rw [parseValue]
      | succ n =>
        rw [parseValue, if_neg (by decide), if_pos rfl]
        simp only [hskip']
        exact congrArg (Except.map _) (hparse n depth)
    rw [loads, hskip, hvalue]

end Json

end MasResearch
