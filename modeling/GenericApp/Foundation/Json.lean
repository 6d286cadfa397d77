import Mathlib.Tactic.IntervalCases
import GenericApp.Foundation.Text

/-!
# JSON

`jsonDumps` writes a value as Python's `json.dumps` does with its defaults: in ASCII, on one line, with `", "` and
`": "` between the parts. `jsonParse` reads as JavaScript's `JSON.parse` does. Reading undoes writing
(`jsonParse_jsonDumps`).

A number is kept as its literal, because the two languages agree on what it denotes. A text has no lone surrogates
here, so that an escape that would give one is not read. The members of an object are kept in the order in which they
are written, and a lookup finds the last one of a name.
-/

namespace Py

/-! ### Number literals -/

/-- How far a text has been read as a number. -/
inductive NumberPoint
  | start
  | minus
  | zero
  | whole
  | point
  | fraction
  | exponent
  | sign
  | power
deriving DecidableEq

def NumberPoint.next (p : NumberPoint) (c : Char) : Option NumberPoint :=
  match p with
  | .start => if c = '-' then some .minus else if c = '0' then some .zero else if c.isDigit then some .whole else none
  | .minus => if c = '0' then some .zero else if c.isDigit then some .whole else none
  | .zero => if c = '.' then some .point else if c = 'e' ∨ c = 'E' then some .exponent else none
  | .whole =>
    if c.isDigit then some .whole else if c = '.' then some .point
    else if c = 'e' ∨ c = 'E' then some .exponent else none
  | .point => if c.isDigit then some .fraction else none
  | .fraction => if c.isDigit then some .fraction else if c = 'e' ∨ c = 'E' then some .exponent else none
  | .exponent => if c.isDigit then some .power else if c = '+' ∨ c = '-' then some .sign else none
  | .sign | .power => if c.isDigit then some .power else none

def NumberPoint.isEnd : NumberPoint → Bool
  | .zero | .whole | .fraction | .power => true
  | .start | .minus | .point | .exponent | .sign => false

/-- The rest of a text ends a number that has been read as far as `p`. -/
def NumberPoint.accepts : NumberPoint → Text → Bool
  | p, [] => p.isEnd
  | p, c :: x =>
    match p.next c with
    | some q => q.accepts x
    | none => false

/-- The characters that number literals are made of. -/
def isNumberChar (c : Char) : Bool := c.isDigit || c = '-' || c = '+' || c = '.' || c = 'e' || c = 'E'

/-- A number, as it is written. -/
structure NumberLiteral where
  text : Text
  grammar : NumberPoint.start.accepts text = true

theorem next_eq_none (p : NumberPoint) {c : Char} (h : isNumberChar c = false) : p.next c = none := by
  simp only [isNumberChar, Bool.or_eq_false_iff, decide_eq_false_iff_not] at h
  obtain ⟨⟨⟨⟨⟨hdigit, hminus⟩, hplus⟩, hpoint⟩, he⟩, hE⟩ := h
  have hzero : c ≠ '0' := by
    rintro rfl
    exact nomatch hdigit
  cases p with
  | _ => simp [NumberPoint.next, hdigit, hminus, hplus, hpoint, he, hE, hzero]

theorem isNumberChar_of_accepts {p : NumberPoint} {x : Text} (h : p.accepts x = true) :
    ∀ c ∈ x, isNumberChar c = true := by
  induction x generalizing p with
  | nil => exact fun c hc ↦ nomatch hc
  | cons c x ih =>
    rw [NumberPoint.accepts] at h
    split at h
    · next q hq =>
      intro d hd
      rcases List.mem_cons.1 hd with rfl | hd
      · refine Bool.eq_true_of_not_eq_false fun hd ↦ ?_
        exact nomatch (next_eq_none p hd).symm.trans hq
      · exact ih h d hd
    · exact nomatch h

theorem NumberLiteral.ne_nil (n : NumberLiteral) : n.text ≠ [] := by
  intro h
  have hgrammar := n.grammar
  rw [h] at hgrammar
  exact nomatch hgrammar

theorem accepts_whole {x : Text} (h : ∀ c ∈ x, c.isDigit = true) : NumberPoint.whole.accepts x = true := by
  induction x with
  | nil => rfl
  | cons c x ih =>
    have hnext : NumberPoint.whole.next c = some .whole := if_pos (h c List.mem_cons_self)
    rw [NumberPoint.accepts, hnext]
    exact ih fun d hd ↦ h d (List.mem_cons_of_mem c hd)

/-- The digits of a number do not begin with a zero. -/
theorem head?_toDigits {n : ℕ} (hn : n ≠ 0) : (Nat.toDigits 10 n).head? ≠ some '0' := by
  induction n using Nat.strongRecOn with
  | ind n ih =>
    rcases Nat.lt_or_ge n 10 with hlt | hge
    · rw [Nat.toDigits_of_lt_base hlt]
      interval_cases n <;> first | exact absurd rfl hn | decide
    · have hdiv : n / 10 ≠ 0 := by omega
      have hhead := ih (n / 10) (by omega) hdiv
      rw [Nat.toDigits_of_base_le (by decide) hge, List.head?_append_of_ne_nil _ Nat.toDigits_ne_nil]
      exact hhead

theorem accepts_toDigits {n : ℕ} (hn : n ≠ 0) :
    NumberPoint.start.accepts (Nat.toDigits 10 n) = true ∧ NumberPoint.minus.accepts (Nat.toDigits 10 n) = true := by
  have hdigits : ∀ c ∈ Nat.toDigits 10 n, c.isDigit = true := fun c hc ↦
    Nat.isDigit_of_mem_toDigits (by decide) (by decide) hc
  have hhead : (Nat.toDigits 10 n).head? ≠ some '0' := head?_toDigits hn
  rcases h : Nat.toDigits 10 n with - | ⟨c, x⟩
  · exact absurd h Nat.toDigits_ne_nil
  rw [h] at hdigits hhead
  have hc : c.isDigit = true := hdigits c List.mem_cons_self
  have hzero : c ≠ '0' := fun hc ↦ hhead (congrArg some hc)
  have hminus : c ≠ '-' := by
    rintro rfl
    exact nomatch hc
  have hrest : NumberPoint.whole.accepts x = true := accepts_whole fun d hd ↦ hdigits d (List.mem_cons_of_mem c hd)
  constructor
  · have hnext : NumberPoint.start.next c = some .whole := by
      rw [NumberPoint.next, if_neg hminus, if_neg hzero, if_pos hc]
    rw [NumberPoint.accepts, hnext]
    exact hrest
  · have hnext : NumberPoint.minus.next c = some .whole := by
      rw [NumberPoint.next, if_neg hzero, if_pos hc]
    rw [NumberPoint.accepts, hnext]
    exact hrest

/-- `str(n)` of an `int` -/
def intLiteral : ℤ → NumberLiteral
  | .ofNat 0 => ⟨['0'], rfl⟩
  | .ofNat (n + 1) => ⟨Nat.toDigits 10 (n + 1), (accepts_toDigits (Nat.succ_ne_zero n)).1⟩
  | .negSucc n => ⟨'-' :: Nat.toDigits 10 (n + 1), (accepts_toDigits (Nat.succ_ne_zero n)).2⟩

/-- How far a number is from zero. -/
def NumberLiteral.magnitude (n : NumberLiteral) : ℚ :=
  let mantissa := n.text.takeWhile fun c ↦ c ≠ 'e' ∧ c ≠ 'E'
  let power := n.text.drop (mantissa.length + 1)
  let exponent : ℤ := Nat.ofDigitChars 10 (power.filter Char.isDigit) 0
  let places : ℤ := (mantissa.dropWhile (· ≠ '.')).tail.length
  Nat.ofDigitChars 10 (mantissa.filter Char.isDigit) 0 *
    (10 : ℚ) ^ ((if power.head? = some '-' then -exponent else exponent) - places)

/-! ### Strings -/

/-- The UTF-16 code units of a character. -/
def codeUnits (c : Char) : List ℕ :=
  if c.toNat < 0x10000 then [c.toNat]
  else [0xd800 + (c.toNat - 0x10000) / 0x400, 0xdc00 + (c.toNat - 0x10000) % 0x400]

/-- The text of a list of code units. Those of a character that has not been escaped may still be one. -/
def joinUnits : List ℕ → Option Text
  | [] => some []
  | [u] => if 0xd800 ≤ u ∧ u < 0xe000 then none else some [Char.ofNat u]
  | u :: v :: us =>
    if 0xd800 ≤ u ∧ u < 0xdc00 ∧ 0xdc00 ≤ v ∧ v < 0xe000 then
      (joinUnits us).map (Char.ofNat (0x10000 + (u - 0xd800) * 0x400 + (v - 0xdc00)) :: ·)
    else if 0xd800 ≤ u ∧ u < 0xe000 then none
    else (joinUnits (v :: us)).map (Char.ofNat u :: ·)

/-- `\uXXXX` -/
def escapeUnit (u : ℕ) : Text :=
  ['\\', 'u', Nat.digitChar (u / 4096 % 16), Nat.digitChar (u / 256 % 16), Nat.digitChar (u / 16 % 16),
    Nat.digitChar (u % 16)]

/-- What stands for a character after a backslash. -/
def shortEscape (c : Char) : Option Char :=
  if c = '"' then some '"' else if c = '\\' then some '\\' else if c.toNat = 8 then some 'b'
  else if c.toNat = 12 then some 'f' else if c.toNat = 10 then some 'n' else if c.toNat = 13 then some 'r'
  else if c.toNat = 9 then some 't' else none

def escapeChar (c : Char) : Text :=
  match shortEscape c with
  | some d => ['\\', d]
  | none => if 32 ≤ c.toNat ∧ c.toNat ≤ 126 then [c] else (codeUnits c).flatMap escapeUnit

def dumpString (x : Text) : Text := '"' :: (x.flatMap escapeChar ++ ['"'])

/-- What a character stands for after a backslash. -/
def unescaped (c : Char) : Option ℕ :=
  if c = '"' ∨ c = '\\' ∨ c = '/' then some c.toNat else if c = 'b' then some 8 else if c = 'f' then some 12
  else if c = 'n' then some 10 else if c = 'r' then some 13 else if c = 't' then some 9 else none

def hexValue (c : Char) : Option ℕ :=
  if c.isDigit then some (c.toNat - 48)
  else if 'a' ≤ c ∧ c ≤ 'f' then some (c.toNat - 87)
  else if 'A' ≤ c ∧ c ≤ 'F' then some (c.toNat - 55)
  else none

/-- Where the reading of a string stands. -/
inductive StringPoint
  | plain
  | escape
  /-- Within `\uXXXX`, with so many digits after the next one. -/
  | hex (left : ℕ) (value : ℕ)

/-- The code units of a string up to its closing quote, and what stands behind it. -/
def readUnits : StringPoint → Text → Option (List ℕ × Text)
  | _, [] => none
  | .plain, c :: x =>
    if c = '"' then some ([], x)
    else if c = '\\' then readUnits .escape x
    else if c.toNat < 32 then none
    else (readUnits .plain x).map fun (us, rest) ↦ (c.toNat :: us, rest)
  | .escape, c :: x =>
    if c = 'u' then readUnits (.hex 3 0) x
    else match unescaped c with
      | some u => (readUnits .plain x).map fun (us, rest) ↦ (u :: us, rest)
      | none => none
  | .hex left value, c :: x =>
    match hexValue c with
    | none => none
    | some d =>
      if left = 0 then (readUnits .plain x).map fun (us, rest) ↦ ((value * 16 + d) :: us, rest)
      else readUnits (.hex (left - 1) (value * 16 + d)) x

/-- A string behind its opening quote. -/
def readString (x : Text) : Option (Text × Text) :=
  (readUnits .plain x).bind fun (us, rest) ↦ (joinUnits us).map fun s ↦ (s, rest)

theorem hexValue_digitChar : ∀ n < 16, hexValue (Nat.digitChar n) = some n := by decide +kernel

theorem readUnits_hex {d : ℕ} (hd : d < 16) (left value : ℕ) (x : Text) :
    readUnits (.hex (left + 1) value) (Nat.digitChar d :: x) = readUnits (.hex left (value * 16 + d)) x := by
  rw [readUnits, hexValue_digitChar d hd]
  exact if_neg (Nat.succ_ne_zero left)

theorem readUnits_escapeUnit {u : ℕ} (hu : u < 0x10000) (x : Text) :
    readUnits .plain (escapeUnit u ++ x) = (readUnits .plain x).map fun (us, rest) ↦ (u :: us, rest) := by
  have hlast : readUnits (.hex 0 (u / 16)) (Nat.digitChar (u % 16) :: x) =
      (readUnits .plain x).map fun (us, rest) ↦ (u :: us, rest) := by
    rw [readUnits, hexValue_digitChar (u % 16) (Nat.mod_lt u (by decide))]
    have hvalue : u / 16 * 16 + u % 16 = u := by omega
    simp only [hvalue, if_true]
  have hquote : readUnits .plain (escapeUnit u ++ x) = readUnits (.hex 3 0)
      (Nat.digitChar (u / 4096 % 16) :: Nat.digitChar (u / 256 % 16) :: Nat.digitChar (u / 16 % 16) ::
        Nat.digitChar (u % 16) :: x) := rfl
  rw [hquote, readUnits_hex (by omega), readUnits_hex (by omega), readUnits_hex (by omega), ← hlast]
  congr 2
  omega

/-- A character is no surrogate. -/
theorem toNat_char (c : Char) : c.toNat < 0xd800 ∨ 0xdfff < c.toNat ∧ c.toNat < 0x110000 := c.valid

theorem codeUnits_lt (c : Char) : ∀ u ∈ codeUnits c, u < 0x10000 := by
  intro u hu
  have hc := toNat_char c
  rw [codeUnits] at hu
  split at hu
  · next h => exact List.mem_singleton.1 hu ▸ h
  · simp only [List.mem_cons, List.not_mem_nil, or_false] at hu
    omega

theorem readUnits_escapeUnits {units : List ℕ} (hunits : ∀ u ∈ units, u < 0x10000) (x : Text) :
    readUnits .plain (units.flatMap escapeUnit ++ x) =
      (readUnits .plain x).map fun (us, rest) ↦ (units ++ us, rest) := by
  induction units with
  | nil =>
    rw [List.flatMap_nil, List.nil_append]
    cases readUnits .plain x with
    | none => rfl
    | some found => rfl
  | cons u units ih =>
    rw [List.flatMap_cons, List.append_assoc, readUnits_escapeUnit (hunits u List.mem_cons_self),
      ih fun v hv ↦ hunits v (List.mem_cons_of_mem u hv), Option.map_map]
    rfl

theorem joinUnits_cons {c : Char} (hc : c.toNat < 0x10000) (us : List ℕ) :
    joinUnits (c.toNat :: us) = (joinUnits us).map (c :: ·) := by
  have hvalid := toNat_char c
  have hsurrogate : ¬(0xd800 ≤ c.toNat ∧ c.toNat < 0xe000) := by omega
  cases us with
  | nil => exact (if_neg hsurrogate).trans (congrArg (fun d ↦ some [d]) c.ofNat_toNat)
  | cons v us =>
    rw [joinUnits, if_neg (by omega), if_neg hsurrogate, Char.ofNat_toNat]

theorem joinUnits_codeUnits (c : Char) (us : List ℕ) :
    joinUnits (codeUnits c ++ us) = (joinUnits us).map (c :: ·) := by
  rw [codeUnits]
  split
  · next hc => exact joinUnits_cons hc us
  · next hc =>
    have hvalid := toNat_char c
    have hsum : 0x10000 + (0xd800 + (c.toNat - 0x10000) / 0x400 - 0xd800) * 0x400 +
        (0xdc00 + (c.toNat - 0x10000) % 0x400 - 0xdc00) = c.toNat := by
      omega
    rw [List.cons_append, List.singleton_append, joinUnits, if_pos (by omega), hsum, Char.ofNat_toNat]

theorem joinUnits_flatMap (x : Text) : joinUnits (x.flatMap codeUnits) = some x := by
  induction x with
  | nil => rfl
  | cons c x ih => rw [List.flatMap_cons, joinUnits_codeUnits, ih, Option.map_some]

theorem unescaped_of_shortEscape {c d : Char} (h : shortEscape c = some d) :
    d ≠ 'u' ∧ unescaped d = some c.toNat ∧ codeUnits c = [c.toNat] := by
  have hunits (hc : c.toNat < 0x10000) : codeUnits c = [c.toNat] := if_pos hc
  unfold shortEscape at h
  split_ifs at h with hc hc hc hc hc hc hc <;> obtain rfl := Option.some.inj h
  · exact ⟨by decide, by rw [hc]; decide, hunits (by rw [hc]; decide)⟩
  · exact ⟨by decide, by rw [hc]; decide, hunits (by rw [hc]; decide)⟩
  all_goals exact ⟨by decide, by rw [hc]; decide, hunits (by omega)⟩

theorem shortEscape_eq_none {c : Char} (h : shortEscape c = none) : c ≠ '"' ∧ c ≠ '\\' := by
  constructor
  · rintro rfl
    exact nomatch h
  · rintro rfl
    exact nomatch h

theorem readUnits_escapeChar (c : Char) (x : Text) :
    readUnits .plain (escapeChar c ++ x) =
      (readUnits .plain x).map fun (us, rest) ↦ (codeUnits c ++ us, rest) := by
  rw [escapeChar]
  split
  · next d hd =>
    obtain ⟨hu, hunescaped, hunits⟩ := unescaped_of_shortEscape hd
    have hbackslash : readUnits .plain (['\\', d] ++ x) = readUnits .escape (d :: x) := rfl
    rw [hbackslash, readUnits, if_neg hu, hunescaped, hunits]
    rfl
  · next hnone =>
    obtain ⟨hquote, hbackslash⟩ := shortEscape_eq_none hnone
    split
    · next hc =>
      have hunits : codeUnits c = [c.toNat] := if_pos (by omega)
      rw [List.singleton_append, readUnits, if_neg hquote, if_neg hbackslash, if_neg (by omega), hunits]
      rfl
    · exact readUnits_escapeUnits (codeUnits_lt c) x

/-- What has been written as a string is read as it was. -/
theorem readString_dumpString (s x : Text) : readString (s.flatMap escapeChar ++ '"' :: x) = some (s, x) := by
  have hunits : readUnits .plain (s.flatMap escapeChar ++ '"' :: x) = some (s.flatMap codeUnits, x) := by
    induction s with
    | nil => rfl
    | cons c s ih => rw [List.flatMap_cons, List.append_assoc, readUnits_escapeChar, ih]; rfl
  rw [readString, hunits]
  exact congrArg (Option.map fun t ↦ (t, x)) (joinUnits_flatMap s)

/-! ### Values -/

inductive Json
  | null
  | bool (b : Bool)
  | number (n : NumberLiteral)
  | string (s : Text)
  | array (items : List Json)
  | object (members : List (Text × Json))

namespace Json

/-- `parsed.name`, with no value for `undefined`. -/
def member (name : Text) : Json → Option Json
  | .object members => (members.reverse.find? fun (key, _) ↦ key = name).map Prod.snd
  | _ => none

/-- Whether a value counts as true. A number that is this small is zero. -/
def truthy : Json → Bool
  | .null => false
  | .bool b => b
  | .number n => 1 / 2 ^ 1075 < n.magnitude
  | .string s => s ≠ []
  | .array _ | .object _ => true

end Json

mutual

/-- `json.dumps(value)` -/
def jsonDumps : Json → Text
  | .null => "null".toList
  | .bool true => "true".toList
  | .bool false => "false".toList
  | .number n => n.text
  | .string s => dumpString s
  | .array [] => "[]".toList
  | .array (v :: vs) => '[' :: (jsonDumps v ++ dumpItems vs)
  | .object [] => "{}".toList
  | .object ((key, v) :: members) => '{' :: (dumpString key ++ (':' :: ' ' :: (jsonDumps v ++ dumpMembers members)))

/-- The items behind the first one, and the end of the list. -/
def dumpItems : List Json → Text
  | [] => [']']
  | v :: vs => ',' :: ' ' :: (jsonDumps v ++ dumpItems vs)

def dumpMembers : List (Text × Json) → Text
  | [] => ['}']
  | (key, v) :: members =>
    ',' :: ' ' :: (dumpString key ++ (':' :: ' ' :: (jsonDumps v ++ dumpMembers members)))

end

/-! ### Reading -/

def isJsonSpace (c : Char) : Bool := c = ' ' || c = '\t' || c = '\n' || c = '\r'

def skipSpace (x : Text) : Text := x.dropWhile isJsonSpace

/-- A name that a value consists of. -/
def readName (name : Text) (v : Json) (x : Text) : Option (Json × Text) :=
  if name <+: x then some (v, x.drop name.length) else none

def readNumber (x : Text) : Option (Json × Text) :=
  if h : NumberPoint.start.accepts (x.takeWhile isNumberChar) = true then
    some (.number ⟨x.takeWhile isNumberChar, h⟩, x.dropWhile isNumberChar)
  else none

/-- The name of a member, and what stands behind its colon. -/
def readKey (x : Text) : Option (Text × Text) :=
  match skipSpace x with
  | '"' :: y => do
    let (key, z) ← readString y
    match skipSpace z with
    | ':' :: w => some (key, w)
    | _ => none
  | _ => none

mutual

/-- A value, and what stands behind it. The fuel is enough if it is twice the length of the text (`read_fuel`). -/
def readValue : ℕ → Text → Option (Json × Text)
  | 0, _ => none
  | fuel + 1, x =>
    match skipSpace x with
    | [] => none
    | c :: y =>
      if c = '{' then
        if (skipSpace y).head? = some '}' then some (.object [], (skipSpace y).tail)
        else (readMembers fuel y).map fun (members, rest) ↦ (.object members, rest)
      else if c = '[' then
        if (skipSpace y).head? = some ']' then some (.array [], (skipSpace y).tail)
        else (readItems fuel y).map fun (items, rest) ↦ (.array items, rest)
      else if c = '"' then (readString y).map fun (s, rest) ↦ (.string s, rest)
      else if c = 't' then readName "rue".toList (.bool true) y
      else if c = 'f' then readName "alse".toList (.bool false) y
      else if c = 'n' then readName "ull".toList .null y
      else readNumber (c :: y)

def readItems : ℕ → Text → Option (List Json × Text)
  | 0, _ => none
  | fuel + 1, x => do
    let (v, y) ← readValue fuel x
    match skipSpace y with
    | ',' :: z => (readItems fuel z).map fun (vs, rest) ↦ (v :: vs, rest)
    | ']' :: z => some ([v], z)
    | _ => none

def readMembers : ℕ → Text → Option (List (Text × Json) × Text)
  | 0, _ => none
  | fuel + 1, x => do
    let (key, y) ← readKey x
    let (v, z) ← readValue fuel y
    match skipSpace z with
    | ',' :: w => (readMembers fuel w).map fun (members, rest) ↦ ((key, v) :: members, rest)
    | '}' :: w => some ([(key, v)], w)
    | _ => none

end

/-- `JSON.parse(x)`, with no value for a `SyntaxError`. -/
def jsonParse (x : Text) : Option Json :=
  match readValue (2 * x.length + 1) x with
  | some (v, rest) => if skipSpace rest = [] then some v else none
  | none => none

/-! ### Reading undoes writing -/

theorem skipSpace_cons {c : Char} (hc : isJsonSpace c = false) (x : Text) : skipSpace (c :: x) = c :: x := by
  rw [skipSpace, List.dropWhile_cons, hc]
  rfl

theorem readName_self (name : Text) (v : Json) (x : Text) : readName name v (name ++ x) = some (v, x) := by
  rw [readName, if_pos (List.prefix_append name x), List.drop_left]

/-- A text that does not go on with a number. -/
def NoNumberHead (x : Text) : Prop := ∀ c ∈ x.head?, isNumberChar c = false

theorem noNumberHead_cons {c : Char} (hc : isNumberChar c = false) (x : Text) : NoNumberHead (c :: x) :=
  fun _ hd ↦ Option.some.inj hd ▸ hc

theorem readNumber_text (n : NumberLiteral) {x : Text} (hx : NoNumberHead x) :
    readNumber (n.text ++ x) = some (.number n, x) := by
  have hall := isNumberChar_of_accepts n.grammar
  have hnone : x.takeWhile isNumberChar = [] ∧ x.dropWhile isNumberChar = x := by
    rcases x with - | ⟨c, x⟩
    · exact ⟨rfl, rfl⟩
    · have hc : isNumberChar c = false := hx c rfl
      rw [List.takeWhile_cons, List.dropWhile_cons, hc]
      exact ⟨rfl, rfl⟩
  have htake : (n.text ++ x).takeWhile isNumberChar = n.text := by
    rw [List.takeWhile_append_of_pos hall, hnone.1, List.append_nil]
  have hdrop : (n.text ++ x).dropWhile isNumberChar = x := by
    rw [List.dropWhile_append_of_pos hall, hnone.2]
  simp only [readNumber, htake, hdrop, dif_pos n.grammar]

/-- What a value begins with. -/
theorem exists_head_jsonDumps (v : Json) :
    ∃ c x, jsonDumps v = c :: x ∧ isJsonSpace c = false ∧ c ≠ ']' ∧ c ≠ '}' := by
  cases v with
  | null => exact ⟨'n', _, rfl, by decide⟩
  | bool b =>
    cases b with
    | true => exact ⟨'t', _, rfl, by decide⟩
    | false => exact ⟨'f', _, rfl, by decide⟩
  | number n =>
    obtain ⟨c, x, hcons⟩ := List.exists_cons_of_ne_nil n.ne_nil
    have hc : isNumberChar c = true := isNumberChar_of_accepts n.grammar c (hcons ▸ List.mem_cons_self)
    refine ⟨c, x, hcons, ?_, ?_, ?_⟩
    · by_contra hspace
      simp only [isJsonSpace, Bool.not_eq_false, Bool.or_eq_true, decide_eq_true_eq] at hspace
      rcases hspace with ((rfl | rfl) | rfl) | rfl <;> exact nomatch hc
    · rintro rfl
      exact nomatch hc
    · rintro rfl
      exact nomatch hc
  | string s => exact ⟨'"', _, rfl, by decide⟩
  | array items =>
    cases items with
    | nil => exact ⟨'[', _, rfl, by decide⟩
    | cons v vs => exact ⟨'[', _, rfl, by decide⟩
  | object members =>
    cases members with
    | nil => exact ⟨'{', _, rfl, by decide⟩
    | cons m members => exact ⟨'{', _, rfl, by decide⟩

theorem skipSpace_jsonDumps (v : Json) (x : Text) : skipSpace (jsonDumps v ++ x) = jsonDumps v ++ x := by
  obtain ⟨c, y, hcons, hspace, -⟩ := exists_head_jsonDumps v
  rw [hcons]
  exact skipSpace_cons hspace _

/-- Enough fuel reads a value where it has been written. -/
def Reads (v : Json) : Prop :=
  ∀ fuel x y, 2 * (jsonDumps v).length + 1 ≤ fuel → NoNumberHead x → skipSpace y = jsonDumps v ++ x →
    readValue fuel y = some (v, x)

theorem readValue_cons {c : Char} {x y : Text} (h : skipSpace x = c :: y) (fuel : ℕ) :
    readValue (fuel + 1) x =
      if c = '{' then
        if (skipSpace y).head? = some '}' then some (.object [], (skipSpace y).tail)
        else (readMembers fuel y).map fun (members, rest) ↦ (.object members, rest)
      else if c = '[' then
        if (skipSpace y).head? = some ']' then some (.array [], (skipSpace y).tail)
        else (readItems fuel y).map fun (items, rest) ↦ (.array items, rest)
      else if c = '"' then (readString y).map fun (s, rest) ↦ (.string s, rest)
      else if c = 't' then readName "rue".toList (.bool true) y
      else if c = 'f' then readName "alse".toList (.bool false) y
      else if c = 'n' then readName "ull".toList .null y
      else readNumber (c :: y) := by
  rw [readValue, h]

/-- Fuel for something is some fuel. -/
theorem exists_fuel {n fuel : ℕ} (h : n + 1 ≤ fuel) : ∃ m, fuel = m + 1 :=
  Nat.exists_eq_add_one_of_ne_zero (Nat.ne_of_gt (Nat.lt_of_lt_of_le (Nat.succ_pos n) h))

theorem reads_number (n : NumberLiteral) : Reads (.number n) := by
  intro fuel x y hfuel hx hy
  obtain ⟨fuel, rfl⟩ := exists_fuel hfuel
  obtain ⟨c, z, htext⟩ := List.exists_cons_of_ne_nil n.ne_nil
  have hread := readNumber_text n hx
  have hc : isNumberChar c = true := isNumberChar_of_accepts n.grammar c (htext ▸ List.mem_cons_self)
  have hne (d : Char) (hd : isNumberChar d = false) : c ≠ d := by
    rintro rfl
    exact nomatch hc.symm.trans hd
  have hcons : skipSpace y = c :: (z ++ x) := by
    rw [hy, jsonDumps, htext]
    rfl
  rw [readValue_cons hcons, if_neg (hne _ rfl), if_neg (hne _ rfl), if_neg (hne _ rfl), if_neg (hne _ rfl),
    if_neg (hne _ rfl), if_neg (hne _ rfl)]
  rwa [htext] at hread

theorem reads_string (s : Text) : Reads (.string s) := by
  intro fuel x y hfuel hx hy
  obtain ⟨fuel, rfl⟩ := exists_fuel hfuel
  have hcons : skipSpace y = '"' :: (s.flatMap escapeChar ++ '"' :: x) := by
    rw [hy, jsonDumps, dumpString, List.cons_append, List.append_assoc]
    rfl
  rw [readValue_cons hcons, if_neg (by decide), if_neg (by decide), if_pos rfl, readString_dumpString]
  rfl

/-- A value that is a name, which is not looked at any further. -/
theorem reads_name {c : Char} {name : Text} {v : Json} (hdumps : jsonDumps v = c :: name)
    (hread : ∀ fuel x y, skipSpace x = c :: y → readValue (fuel + 1) x = readName name v y) : Reads v := by
  intro fuel x y hfuel hx hy
  obtain ⟨fuel, rfl⟩ := exists_fuel hfuel
  rw [hdumps] at hy
  rw [hread fuel y (name ++ x) hy, readName_self]

/-- Behind a comma there is a space, which is skipped before the next value. -/
theorem readItems_dumpItems {v : Json} (hv : Reads v) {vs : List Json} (hvs : ∀ w ∈ vs, Reads w) (x : Text) {y : Text}
    (hy : skipSpace y = jsonDumps v ++ (dumpItems vs ++ x)) (fuel : ℕ)
    (hfuel : 2 * (jsonDumps v ++ dumpItems vs).length + 2 ≤ fuel) : readItems fuel y = some (v :: vs, x) := by
  obtain ⟨fuel, rfl⟩ := exists_fuel hfuel
  induction vs generalizing v fuel y with
  | nil =>
    rw [List.length_append] at hfuel
    rw [readItems, hv fuel (']' :: x) y (by omega) (noNumberHead_cons rfl x) hy]
    rfl
  | cons w ws ih =>
    simp only [dumpItems, List.length_append, List.length_cons] at hfuel
    obtain ⟨fuel, rfl⟩ := Nat.exists_eq_add_one_of_ne_zero (show fuel ≠ 0 by omega)
    rw [dumpItems, List.cons_append, List.cons_append, List.append_assoc] at hy
    have hspace : skipSpace (' ' :: (jsonDumps w ++ (dumpItems ws ++ x))) = jsonDumps w ++ (dumpItems ws ++ x) :=
      skipSpace_jsonDumps w _
    have hrest := ih (hvs w List.mem_cons_self) (fun u hu ↦ hvs u (List.mem_cons_of_mem w hu)) hspace fuel
      (by rw [List.length_append]; omega)
    rw [readItems, hv (fuel + 1) _ y (by omega) (noNumberHead_cons rfl _) hy]
    exact congrArg (Option.map fun (vs, rest) ↦ (v :: vs, rest)) hrest

theorem readKey_dumpString {key x y : Text} (hy : skipSpace y = dumpString key ++ ':' :: x) :
    readKey y = some (key, x) := by
  have hcons : skipSpace y = '"' :: (key.flatMap escapeChar ++ '"' :: ':' :: x) := by
    rw [hy, dumpString, List.cons_append, List.append_assoc]
    rfl
  rw [readKey, hcons]
  simp only [readString_dumpString, Option.bind_eq_bind, Option.bind_some]
  rfl

theorem readMembers_dumpMembers (key : Text) {v : Json} (hv : Reads v) {members : List (Text × Json)}
    (hmembers : ∀ m ∈ members, Reads m.2) (x : Text) {y : Text}
    (hy : skipSpace y = dumpString key ++ (':' :: ' ' :: (jsonDumps v ++ (dumpMembers members ++ x)))) (fuel : ℕ)
    (hfuel : 2 * (jsonDumps v ++ dumpMembers members).length + 2 ≤ fuel) :
    readMembers fuel y = some ((key, v) :: members, x) := by
  obtain ⟨fuel, rfl⟩ := exists_fuel hfuel
  induction members generalizing key v fuel y with
  | nil =>
    rw [List.length_append] at hfuel
    have hvalue : readValue fuel (' ' :: (jsonDumps v ++ '}' :: x)) = some (v, '}' :: x) :=
      hv fuel ('}' :: x) _ (by omega) (noNumberHead_cons rfl x) (skipSpace_jsonDumps v _)
    rw [readMembers, readKey_dumpString hy]
    exact congrArg (Option.bind · _) hvalue
  | cons m members ih =>
    obtain ⟨name, w⟩ := m
    simp only [dumpMembers, List.length_append, List.length_cons] at hfuel
    obtain ⟨fuel, rfl⟩ := Nat.exists_eq_add_one_of_ne_zero (show fuel ≠ 0 by omega)
    have hvalue : readValue (fuel + 1) (' ' :: (jsonDumps v ++ (dumpMembers ((name, w) :: members) ++ x))) =
        some (v, dumpMembers ((name, w) :: members) ++ x) :=
      hv (fuel + 1) _ _ (by omega) (noNumberHead_cons rfl _) (skipSpace_jsonDumps v _)
    have hspace : skipSpace
        (' ' :: (dumpString name ++ (':' :: ' ' :: (jsonDumps w ++ dumpMembers members)) ++ x)) =
          dumpString name ++ (':' :: ' ' :: (jsonDumps w ++ (dumpMembers members ++ x))) := by
      rw [List.append_assoc, List.cons_append, List.cons_append, List.append_assoc]
      rfl
    have hrest := ih name (v := w) (hmembers (name, w) List.mem_cons_self)
      (fun m hm ↦ hmembers m (List.mem_cons_of_mem _ hm)) hspace fuel (by rw [List.length_append]; omega)
    rw [readMembers, readKey_dumpString hy]
    refine (congrArg (Option.bind · _) hvalue).trans ?_
    exact congrArg (Option.map fun (members, rest) ↦ ((key, v) :: members, rest)) hrest

mutual

/-- Every value is read where it has been written. -/
theorem reads : ∀ v : Json, Reads v
  | .null => reads_name rfl fun fuel x y h ↦ (readValue_cons h fuel).trans rfl
  | .bool true => reads_name rfl fun fuel x y h ↦ (readValue_cons h fuel).trans rfl
  | .bool false => reads_name rfl fun fuel x y h ↦ (readValue_cons h fuel).trans rfl
  | .number n => reads_number n
  | .string s => reads_string s
  | .array [] => by
    intro fuel x y hfuel hx hy
    obtain ⟨fuel, rfl⟩ := exists_fuel hfuel
    exact readValue_cons hy fuel
  | .array (v :: vs) => by
    intro fuel x y hfuel hx hy
    obtain ⟨fuel, rfl⟩ := exists_fuel hfuel
    rw [jsonDumps, List.cons_append, List.append_assoc] at hy
    rw [jsonDumps, List.length_cons] at hfuel
    have hitems := readItems_dumpItems (reads v) (readsItems vs) x (skipSpace_jsonDumps v _) fuel (by omega)
    obtain ⟨c, z, hcons, -, hc, -⟩ := exists_head_jsonDumps v
    have hhead : (skipSpace (jsonDumps v ++ (dumpItems vs ++ x))).head? ≠ some ']' := by
      rw [skipSpace_jsonDumps, hcons]
      exact fun h ↦ hc (Option.some.inj h)
    rw [readValue_cons hy, if_neg (by decide), if_pos rfl, if_neg hhead, hitems]
    rfl
  | .object [] => by
    intro fuel x y hfuel hx hy
    obtain ⟨fuel, rfl⟩ := exists_fuel hfuel
    exact readValue_cons hy fuel
  | .object ((key, v) :: members) => by
    intro fuel x y hfuel hx hy
    obtain ⟨fuel, rfl⟩ := exists_fuel hfuel
    simp only [jsonDumps, List.cons_append, List.append_assoc] at hy
    simp only [jsonDumps, List.length_cons, List.length_append] at hfuel
    have hmembers := readMembers_dumpMembers key (reads v) (readsMembers members) x
      (show skipSpace (dumpString key ++
        (':' :: ' ' :: (jsonDumps v ++ (dumpMembers members ++ x)))) = _ from rfl) fuel
      (by rw [List.length_append]; omega)
    rw [readValue_cons hy, if_pos rfl, if_neg (fun h ↦ nomatch h), hmembers]
    rfl

theorem readsItems : ∀ vs : List Json, ∀ w ∈ vs, Reads w
  | [], _, hw => nomatch hw
  | v :: vs, w, hw => by
    rcases List.mem_cons.1 hw with h | hw
    · exact h ▸ reads v
    · exact readsItems vs w hw

theorem readsMembers : ∀ members : List (Text × Json), ∀ m ∈ members, Reads m.2
  | [], _, hm => nomatch hm
  | (key, v) :: members, m, hm => by
    rcases List.mem_cons.1 hm with h | hm
    · exact h ▸ reads v
    · exact readsMembers members m hm

end

/-- Reading undoes writing. -/
theorem jsonParse_jsonDumps (v : Json) : jsonParse (jsonDumps v) = some v := by
  have hspace : skipSpace (jsonDumps v) = jsonDumps v ++ [] := by
    have h := skipSpace_jsonDumps v []
    rwa [List.append_nil] at h ⊢
  rw [jsonParse, reads v _ [] _ le_rfl (fun c hc ↦ nomatch hc) hspace]
  rfl

/-! ### Plain ASCII -/

/-- A text of printable ASCII characters. -/
def Printable (x : Text) : Prop := ∀ c ∈ x, 32 ≤ c.toNat ∧ c.toNat ≤ 126

instance (x : Text) : Decidable (Printable x) :=
  List.decidableBAll _ x

theorem Printable.append {x y : Text} (hx : Printable x) (hy : Printable y) : Printable (x ++ y) :=
  fun c hc ↦ (List.mem_append.1 hc).elim (hx c) (hy c)

theorem Printable.cons {c : Char} {x : Text} (hc : 32 ≤ c.toNat ∧ c.toNat ≤ 126) (hx : Printable x) :
    Printable (c :: x) := by
  intro d hd
  rcases List.mem_cons.1 hd with rfl | hd
  · exact hc
  · exact hx d hd

theorem Printable.flatMap {ι : Type} {f : ι → Text} (hf : ∀ i, Printable (f i)) (l : List ι) :
    Printable (l.flatMap f) := by
  intro c hc
  obtain ⟨i, -, hi⟩ := List.mem_flatMap.1 hc
  exact hf i c hi

theorem printable_digitChar : ∀ n < 16, 32 ≤ (Nat.digitChar n).toNat ∧ (Nat.digitChar n).toNat ≤ 126 := by
  decide +kernel

theorem printable_escapeUnit (u : ℕ) : Printable (escapeUnit u) := by
  have hdigit (m : ℕ) : 32 ≤ (Nat.digitChar (m % 16)).toNat ∧ (Nat.digitChar (m % 16)).toNat ≤ 126 :=
    printable_digitChar (m % 16) (Nat.mod_lt m (by decide))
  refine .cons (by decide) (.cons (by decide) (.cons (hdigit _) (.cons (hdigit _) (.cons (hdigit _) ?_))))
  exact .cons (hdigit u) fun c hc ↦ nomatch hc

theorem printable_escapeChar (c : Char) : Printable (escapeChar c) := by
  rw [escapeChar]
  split
  · next d hd =>
    refine .cons (by decide) (.cons ?_ fun c hc ↦ nomatch hc)
    unfold shortEscape at hd
    split_ifs at hd <;> (obtain rfl := Option.some.inj hd; decide)
  · split
    · next hc => exact .cons hc fun c hc ↦ nomatch hc
    · exact Printable.flatMap printable_escapeUnit _

theorem printable_dumpString (s : Text) : Printable (dumpString s) :=
  .cons (by decide) ((Printable.flatMap printable_escapeChar s).append (.cons (by decide) fun c hc ↦ nomatch hc))

theorem printable_number (n : NumberLiteral) : Printable n.text := by
  intro c hc
  have hchar := isNumberChar_of_accepts n.grammar c hc
  simp only [isNumberChar, Bool.or_eq_true, decide_eq_true_eq] at hchar
  rcases hchar with ((((hdigit | rfl) | rfl) | rfl) | rfl) | rfl
  · simp only [Char.isDigit, Bool.and_eq_true, decide_eq_true_eq] at hdigit
    exact ⟨Nat.le_trans (by decide) hdigit.1, Nat.le_trans hdigit.2 (by decide)⟩
  all_goals decide

mutual

/-- A value is written in ASCII and on one line. -/
theorem printable_jsonDumps : ∀ v : Json, Printable (jsonDumps v)
  | .null | .bool true | .bool false | .array [] | .object [] => by decide
  | .number n => printable_number n
  | .string s => printable_dumpString s
  | .array (v :: vs) => .cons (by decide) ((printable_jsonDumps v).append (printable_dumpItems vs))
  | .object ((key, v) :: members) =>
    .cons (by decide) ((printable_dumpString key).append (.cons (by decide) (.cons (by decide)
      ((printable_jsonDumps v).append (printable_dumpMembers members)))))

theorem printable_dumpItems : ∀ vs : List Json, Printable (dumpItems vs)
  | [] => by decide
  | v :: vs => .cons (by decide) (.cons (by decide) ((printable_jsonDumps v).append (printable_dumpItems vs)))

theorem printable_dumpMembers : ∀ members : List (Text × Json), Printable (dumpMembers members)
  | [] => by decide
  | (key, v) :: members =>
    .cons (by decide) (.cons (by decide) ((printable_dumpString key).append (.cons (by decide) (.cons (by decide)
      ((printable_jsonDumps v).append (printable_dumpMembers members))))))

end

/-- Behind the first member an object ends with its brace. -/
theorem dumpMembers_concat (members : List (Text × Json)) : ∃ x, dumpMembers members = x ++ ['}'] := by
  induction members with
  | nil => exact ⟨[], rfl⟩
  | cons m members ih =>
    obtain ⟨x, hx⟩ := ih
    refine ⟨',' :: ' ' :: (dumpString m.1 ++ (':' :: ' ' :: (jsonDumps m.2 ++ x))), ?_⟩
    simp only [dumpMembers, hx, List.cons_append, List.append_assoc]

/-! ### The fuel is enough -/

theorem readUnits_shorter {p : StringPoint} {x rest : Text} {us : List ℕ} (h : readUnits p x = some (us, rest)) :
    rest.length < x.length := by
  induction x generalizing p us with
  | nil => exact nomatch h
  | cons c x ih =>
    have hmap {p : StringPoint} {u : ℕ}
        (h : (readUnits p x).map (fun (us, rest) ↦ (u :: us, rest)) = some (us, rest)) :
        rest.length < (c :: x).length := by
      obtain ⟨⟨us', rest'⟩, hread, heq⟩ := Option.map_eq_some_iff.1 h
      obtain ⟨-, rfl⟩ := Prod.mk.inj heq
      exact Nat.lt_succ_of_lt (ih hread)
    cases p with
    | plain =>
      rw [readUnits] at h
      split at h
      · obtain ⟨-, rfl⟩ := Prod.mk.inj (Option.some.inj h)
        exact Nat.lt_succ_self _
      · split at h
        · exact Nat.lt_succ_of_lt (ih h)
        · split at h
          · exact nomatch h
          · exact hmap h
    | escape =>
      rw [readUnits] at h
      split at h
      · exact Nat.lt_succ_of_lt (ih h)
      · split at h
        · exact hmap h
        · exact nomatch h
    | hex left value =>
      rw [readUnits] at h
      split at h
      · exact nomatch h
      · split at h
        · exact hmap h
        · exact Nat.lt_succ_of_lt (ih h)

theorem readString_shorter {x s rest : Text} (h : readString x = some (s, rest)) : rest.length < x.length := by
  obtain ⟨⟨us, rest'⟩, hread, hjoin⟩ := Option.bind_eq_some_iff.1 h
  obtain ⟨s', -, heq⟩ := Option.map_eq_some_iff.1 hjoin
  obtain ⟨-, rfl⟩ := Prod.mk.inj heq
  exact readUnits_shorter hread

theorem length_skipSpace_le (x : Text) : (skipSpace x).length ≤ x.length := (List.dropWhile_suffix _).length_le

theorem readKey_shorter {x key rest : Text} (h : readKey x = some (key, rest)) : rest.length < x.length := by
  have hx := length_skipSpace_le x
  rw [readKey] at h
  split at h
  · next y hy =>
    obtain ⟨⟨key', z⟩, hread, h⟩ := Option.bind_eq_some_iff.1 h
    have hz := length_skipSpace_le z
    have hstring := readString_shorter hread
    rw [hy, List.length_cons] at hx
    dsimp only at h
    split at h
    · next w hw =>
      obtain ⟨-, rfl⟩ := Prod.mk.inj (Option.some.inj h)
      rw [hw, List.length_cons] at hz
      omega
    · exact nomatch h
  · exact nomatch h

theorem readNumber_shorter {c : Char} {x rest : Text} {v : Json} (h : readNumber (c :: x) = some (v, rest)) :
    rest.length < (c :: x).length := by
  rw [readNumber] at h
  split at h
  · next hgrammar =>
    obtain ⟨-, rfl⟩ := Prod.mk.inj (Option.some.inj h)
    have hne : (c :: x).takeWhile isNumberChar ≠ [] := fun hnil ↦ by
      rw [hnil] at hgrammar
      exact nomatch hgrammar
    have hlength := congrArg List.length (List.takeWhile_append_dropWhile (p := isNumberChar) (l := c :: x))
    have hpos := List.length_pos_of_ne_nil hne
    rw [List.length_append] at hlength
    omega
  · exact nomatch h

theorem readName_length {name x rest : Text} {v w : Json} (h : readName name v x = some (w, rest)) :
    rest.length ≤ x.length := by
  rw [readName] at h
  split at h
  · obtain ⟨-, rfl⟩ := Prod.mk.inj (Option.some.inj h)
    exact (List.drop_suffix _ x).length_le
  · exact nomatch h

/-- What is read is taken off the text. -/
theorem read_shorter (fuel : ℕ) :
    (∀ x v rest, readValue fuel x = some (v, rest) → rest.length < x.length) ∧
      (∀ x vs rest, readItems fuel x = some (vs, rest) → rest.length < x.length) ∧
      ∀ x members rest, readMembers fuel x = some (members, rest) → rest.length < x.length := by
  induction fuel with
  | zero => exact ⟨fun _ _ _ ↦ (nomatch ·), fun _ _ _ ↦ (nomatch ·), fun _ _ _ ↦ (nomatch ·)⟩
  | succ fuel ih =>
    obtain ⟨ihvalue, ihitems, ihmembers⟩ := ih
    refine ⟨fun x v rest h ↦ ?_, fun x vs rest h ↦ ?_, fun x members rest h ↦ ?_⟩
    · have hx := length_skipSpace_le x
      rcases hcons : skipSpace x with - | ⟨c, y⟩
      · rw [readValue, hcons] at h
        exact nomatch h
      rw [hcons, List.length_cons] at hx
      rw [readValue_cons hcons] at h
      have hy := length_skipSpace_le y
      have htail : (skipSpace y).tail.length ≤ (skipSpace y).length := by
        rw [List.length_tail]
        exact Nat.sub_le _ _
      split_ifs at h
      · obtain ⟨-, rfl⟩ := Prod.mk.inj (Option.some.inj h)
        omega
      · obtain ⟨⟨members, rest'⟩, hread, heq⟩ := Option.map_eq_some_iff.1 h
        obtain rfl : rest' = rest := congrArg Prod.snd heq
        have := ihmembers y members rest' hread
        omega
      · obtain ⟨-, rfl⟩ := Prod.mk.inj (Option.some.inj h)
        omega
      · obtain ⟨⟨items, rest'⟩, hread, heq⟩ := Option.map_eq_some_iff.1 h
        obtain rfl : rest' = rest := congrArg Prod.snd heq
        have := ihitems y items rest' hread
        omega
      · obtain ⟨⟨s, rest'⟩, hread, heq⟩ := Option.map_eq_some_iff.1 h
        obtain rfl : rest' = rest := congrArg Prod.snd heq
        have := readString_shorter hread
        omega
      · exact Nat.lt_of_le_of_lt (readName_length h) (by omega)
      · exact Nat.lt_of_le_of_lt (readName_length h) (by omega)
      · exact Nat.lt_of_le_of_lt (readName_length h) (by omega)
      · have := readNumber_shorter h
        rw [List.length_cons] at this
        omega
    · obtain ⟨⟨v, y⟩, hread, h⟩ := Option.bind_eq_some_iff.1 h
      have hvalue := ihvalue x v y hread
      have hy := length_skipSpace_le y
      dsimp only at h
      split at h
      · next z hz =>
        obtain ⟨⟨vs', rest'⟩, hrest, heq⟩ := Option.map_eq_some_iff.1 h
        obtain rfl : rest' = rest := congrArg Prod.snd heq
        have := ihitems z vs' rest' hrest
        rw [hz, List.length_cons] at hy
        omega
      · next z hz =>
        obtain ⟨-, rfl⟩ := Prod.mk.inj (Option.some.inj h)
        rw [hz, List.length_cons] at hy
        omega
      · exact nomatch h
    · obtain ⟨⟨key, y⟩, hkey, h⟩ := Option.bind_eq_some_iff.1 h
      obtain ⟨⟨v, z⟩, hread, h⟩ := Option.bind_eq_some_iff.1 h
      have hname := readKey_shorter hkey
      have hvalue := ihvalue y v z hread
      have hz := length_skipSpace_le z
      dsimp only at h
      split at h
      · next w hw =>
        obtain ⟨⟨members', rest'⟩, hrest, heq⟩ := Option.map_eq_some_iff.1 h
        obtain rfl : rest' = rest := congrArg Prod.snd heq
        have := ihmembers w members' rest' hrest
        rw [hw, List.length_cons] at hz
        omega
      · next w hw =>
        obtain ⟨-, rfl⟩ := Prod.mk.inj (Option.some.inj h)
        rw [hw, List.length_cons] at hz
        omega
      · exact nomatch h

/-- More fuel than the length of the text asks for changes nothing. -/
theorem read_fuel (fuel : ℕ) :
    (∀ x more, 2 * x.length + 1 ≤ fuel → fuel ≤ more → readValue more x = readValue fuel x) ∧
      (∀ x more, 2 * x.length + 2 ≤ fuel → fuel ≤ more → readItems more x = readItems fuel x) ∧
      ∀ x more, 2 * x.length + 2 ≤ fuel → fuel ≤ more → readMembers more x = readMembers fuel x := by
  induction fuel with
  | zero =>
    refine ⟨fun x more h ↦ ?_, fun x more h ↦ ?_, fun x more h ↦ ?_⟩ <;> omega
  | succ fuel ih =>
    obtain ⟨ihvalue, ihitems, ihmembers⟩ := ih
    refine ⟨fun x more hx hmore ↦ ?_, fun x more hx hmore ↦ ?_, fun x more hx hmore ↦ ?_⟩ <;>
      obtain ⟨more, rfl⟩ := Nat.exists_eq_add_one_of_ne_zero (show more ≠ 0 by omega) <;>
      have hmore' : fuel ≤ more := Nat.le_of_succ_le_succ hmore
    · have hskip := length_skipSpace_le x
      rcases hcons : skipSpace x with - | ⟨c, y⟩
      · rw [readValue, readValue, hcons]
      · rw [hcons, List.length_cons] at hskip
        rw [readValue_cons hcons, readValue_cons hcons, ihmembers y more (by omega) hmore',
          ihitems y more (by omega) hmore']
    · rw [readItems, readItems, ihvalue x more (by omega) hmore']
      refine Option.bind_congr fun ⟨v, y⟩ hread ↦ ?_
      have hvalue := (read_shorter fuel).1 x v y hread
      have hskip := length_skipSpace_le y
      dsimp only
      split
      · next z hz =>
        rw [hz, List.length_cons] at hskip
        rw [ihitems z more (by omega) hmore']
      · rfl
      · rfl
    · rw [readMembers, readMembers]
      refine Option.bind_congr fun ⟨key, y⟩ hkey ↦ ?_
      have hname := readKey_shorter hkey
      dsimp only
      rw [ihvalue y more (by omega) hmore']
      refine Option.bind_congr fun ⟨v, z⟩ hread ↦ ?_
      have hvalue := (read_shorter fuel).1 y v z hread
      have hskip := length_skipSpace_le z
      dsimp only
      split
      · next w hw =>
        rw [hw, List.length_cons] at hskip
        rw [ihmembers w more (by omega) hmore']
      · rfl
      · rfl

end Py
