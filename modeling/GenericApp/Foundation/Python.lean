import Std.Data.String.ToInt
import Mathlib.Data.List.Basic
import Mathlib.Data.Int.Order.Basic
import Mathlib.Algebra.Order.Ring.Unbundled.Rat

/-!
# The Python built-ins that the modelled code leans on

Truthiness (`x or y` on numbers and on optional strings), `round` and `math.isclose`, slices from the
left, `str.strip`, `str.find`, dictionaries with string keys, `datetime` and `timedelta`. Only what the modelled
functions call is here, each under the reading the language documents: `0`, `None` and `""` are the
false values, `s[:n]` counts characters, and `strip` removes the Unicode white space of
`str.isspace`.

A `float` is the rational number it stands for: what the code does with scores and thresholds is to
add, multiply, divide and compare them, and none of it is rounded here unless the code rounds it.

An aware `datetime` is an instant, so it is modelled by the number of microseconds since a fixed
epoch: comparison and subtraction are those of the integers, and nothing is lost to a time zone.
-/

namespace Py

/-! ### Truthiness -/

/-- `a or b` on numbers. -/
def orNat (a b : ℕ) : ℕ := if a = 0 then b else a

@[inherit_doc orNat]
def orInt (a b : ℤ) : ℤ := if a = 0 then b else a

@[inherit_doc orNat]
def orRat (a b : ℚ) : ℚ := if a = 0 then b else a

/-- A string argument that counts as given: neither `None` nor empty. -/
def given (s : Option String) : Option String := s.filter (· ≠ "")

/-- `a or b` on an optional string. -/
def orStr (a : Option String) (b : String) : String := (given a).getD b

theorem orNat_of_pos {a : ℕ} (b : ℕ) (ha : 0 < a) : orNat a b = a :=
  if_neg (by omega)

theorem given_eq_some_iff {s : Option String} {t : String} :
    given s = some t ↔ s = some t ∧ t ≠ "" := by
  simp [given, Option.filter_eq_some_iff]

/-! ### Numbers -/

/-- `round(x, digits)`: to the nearest, and to the even one of two. -/
def roundTo (digits : ℕ) (x : ℚ) : ℚ :=
  let scaled := x * 10 ^ digits
  let low := scaled.floor
  let rest := scaled - low
  let nearest := if rest < 1 / 2 ∨ rest = 1 / 2 ∧ low % 2 = 0 then low else low + 1
  nearest / 10 ^ digits

/-- `abs(x)` -/
def absRat (x : ℚ) : ℚ := if x < 0 then -x else x

/-- `math.isclose(a, b)`, with its relative tolerance of `1e-09`. -/
def isclose (a b : ℚ) : Bool := absRat (a - b) ≤ max (absRat a) (absRat b) / 1000000000

/-! ### Strings -/

/-- `s[:n]`. -/
def slice (n : ℕ) (s : String) : String := String.ofList (s.toList.take n)

/-- The white space of `str.isspace`. -/
def isSpace (c : Char) : Bool :=
  let n := c.toNat
  (9 ≤ n ∧ n ≤ 13) ∨ (28 ≤ n ∧ n ≤ 32) ∨ n = 133 ∨ n = 160 ∨ n = 5760 ∨ (8192 ≤ n ∧ n ≤ 8202) ∨
    n = 8232 ∨ n = 8233 ∨ n = 8239 ∨ n = 8287 ∨ n = 12288

/-- `s.strip()`. -/
def strip (s : String) : String :=
  String.ofList (((s.toList.dropWhile isSpace).reverse.dropWhile isSpace).reverse)

/-- `s.rstrip()`. -/
def rstrip (s : String) : String := String.ofList ((s.toList.reverse.dropWhile isSpace).reverse)

/-- Texts that begin differently are different. -/
theorem append_ne_append {p q : String} (s t : String) (n : ℕ) (hp : n ≤ p.toList.length)
    (hq : n ≤ q.toList.length) (h : p.toList.take n ≠ q.toList.take n) : p ++ s ≠ q ++ t := by
  intro heq
  have hlist : p.toList ++ s.toList = q.toList ++ t.toList := by
    rw [← String.toList_append, ← String.toList_append, heq]
  have htake := congrArg (List.take n) hlist
  rw [List.take_append_of_le_length hp, List.take_append_of_le_length hq] at htake
  exact h htake

/-! ### Separators -/

/-- A list is cut in one way only at the last place where the separator stands. -/
theorem append_cons_inj_of_notMem {α : Type} {c : α} {t t' : List α} (ht : c ∉ t) (ht' : c ∉ t')
    {s s' : List α} (h : s ++ c :: t = s' ++ c :: t') : s = s' ∧ t = t' := by
  induction s generalizing s' with
  | nil =>
    match s' with
    | [] => exact ⟨rfl, (List.cons.inj h).2⟩
    | _ :: u =>
      obtain ⟨-, htail⟩ := List.cons.inj h
      exact absurd (htail ▸ List.mem_append_right u List.mem_cons_self) ht
  | cons x s ih =>
    match s' with
    | [] =>
      obtain ⟨-, htail⟩ := List.cons.inj h
      exact absurd (htail ▸ List.mem_append_right s List.mem_cons_self) ht'
    | y :: u =>
      obtain ⟨hxy, htail⟩ := List.cons.inj h
      obtain ⟨hs, ht⟩ := ih htail
      exact ⟨by rw [hxy, hs], ht⟩

/-- And in one way only at the first place. -/
theorem cons_append_inj_of_notMem {α : Type} {c : α} {s s' : List α} (hs : c ∉ s) (hs' : c ∉ s')
    {t t' : List α} (h : s ++ c :: t = s' ++ c :: t') : s = s' ∧ t = t' := by
  have hreverse : t.reverse ++ c :: s.reverse = t'.reverse ++ c :: s'.reverse := by
    simpa using congrArg List.reverse h
  obtain ⟨ht, hs⟩ := append_cons_inj_of_notMem (by simpa using hs) (by simpa using hs') hreverse
  exact ⟨List.reverse_injective hs, List.reverse_injective ht⟩

/-- A number is written in digits, with a sign. -/
theorem notMem_toString {c : Char} (hc : c.isDigit = false ∧ c ≠ '-') (n : ℤ) :
    c ∉ (toString n).toList := by
  have hnat (k : ℕ) : c ∉ (Nat.repr k).toList := by
    intro h
    have hdigit := Nat.isDigit_of_mem_toDigits (b := 10) (by decide) (by decide)
      (by simpa [Nat.repr] using h)
    exact Bool.false_ne_true (hc.1.symm.trans hdigit)
  match n with
  | .ofNat k => exact hnat k
  | .negSucc k =>
    show c ∉ (Int.repr (.negSucc k)).toList
    simpa [Int.repr, hc.2] using hnat (k + 1)

/-- Numbers that are written alike are the same. -/
theorem toString_injective {m n : ℤ} (h : (toString m).toList = (toString n).toList) : m = n :=
  Int.repr_injective (String.toList_inj.1 h)

/-! ### Characters -/

/-- `s.replace(c, d)` for single characters. -/
def replaceChar (c d : Char) (s : String) : String :=
  String.ofList (s.toList.map fun x ↦ if x = c then d else x)

/-- `s.find(p, start)`, with no value for `-1`. -/
def find (s p : String) (start : ℕ) : Option ℕ :=
  (List.range (s.length + 1)).find? fun i ↦ start ≤ i && p.toList.isPrefixOf (s.toList.drop i)

/-- The longest runs of characters of one kind, `run` being the one under way, backwards. -/
def charRuns (p : Char → Bool) : List Char → List Char → List (List Char)
  | run, [] => [run.reverse]
  | run, c :: cs => if p c then charRuns p (c :: run) cs else run.reverse :: charRuns p [] cs

/-- `s.lower()`, of which only the Latin letters matter to the code. -/
def lower (s : String) : String := String.ofList (s.toList.map Char.toLower)

/-! ### Lists -/

/-- `xs[:n]`, which counts from the end where `n` is negative. -/
def takeTo {α : Type} (n : ℤ) (xs : List α) : List α :=
  xs.take (if 0 ≤ n then n.toNat else xs.length - (-n).toNat)

theorem takeTo_sublist {α : Type} (n : ℤ) (xs : List α) : (takeTo n xs).Sublist xs :=
  List.take_sublist _ _

/-- The list that a loop `for x in xs` keeps which looks, for each element, at those it has kept. -/
def keepBy {α : Type} (admits : List α → α → Bool) : List α → List α → List α
  | _, [] => []
  | kept, x :: xs =>
    if admits kept x then x :: keepBy admits (kept ++ [x]) xs else keepBy admits kept xs

theorem keepBy_sublist {α : Type} (admits : List α → α → Bool) (xs : List α) :
    ∀ kept, (keepBy admits kept xs).Sublist xs := by
  induction xs with
  | nil => exact fun _ ↦ List.Sublist.refl []
  | cons x xs ih =>
    intro kept
    rw [keepBy]
    split
    · exact (ih _).cons_cons x
    · exact (ih kept).cons x

/-! ### Dictionaries -/

/-- The values of a metadata dictionary. -/
inductive Value
  | none
  | bool (b : Bool)
  | int (n : ℤ)
  | str (s : String)
  | dict (entries : List (String × Value))
  | float (x : ℚ)

namespace Value

/-- `bool(value)`. -/
def truthy : Value → Bool
  | none => false
  | bool b => b
  | int n => n ≠ 0
  | str s => s ≠ ""
  | dict entries => !entries.isEmpty
  | float x => x ≠ 0

/-- `a or b`. -/
def orElse (a b : Value) : Value := if a.truthy then a else b

/-- A string or `None`. -/
def ofStr : Option String → Value
  | some s => str s
  | .none => none

/-- An integer or `None`. -/
def ofInt : Option ℤ → Value
  | some n => int n
  | .none => none

/-- `isinstance(value, int)`, as which a boolean counts too. -/
def asInt : Value → Option ℤ
  | int n => some n
  | bool b => some (if b then 1 else 0)
  | _ => .none

/-- `isinstance(value, str)` -/
def asStr : Value → Option String
  | str s => some s
  | _ => .none

/-- `float(value or 0.0)` of a number or `None`. -/
def asFloat : Value → ℚ
  | float x => x
  | int n => n
  | bool b => if b then 1 else 0
  | _ => 0

end Value

/-- A dictionary with string keys, in the order of insertion. -/
abbrev Dict := List (String × Value)

namespace Dict

/-- `d.get(key, default)`. -/
def getD (d : Dict) (key : String) (default : Value) : Value := (d.lookup key).getD default

/-- `d.get(key)`. -/
def get (d : Dict) (key : String) : Value := d.getD key .none

/-- `d[key] = value`: a key that is there keeps its place. -/
def put (d : Dict) (key : String) (value : Value) : Dict :=
  if (d.lookup key).isSome then d.map fun e ↦ if e.1 = key then (key, value) else e
  else d ++ [(key, value)]

/-- `d.setdefault(key, value)`. -/
def setDefault (d : Dict) (key : String) (value : Value) : Dict :=
  if (d.lookup key).isSome then d else d ++ [(key, value)]

/-- The dictionary of the entries of `d` and, over them, those of `e`. -/
def update (d e : Dict) : Dict := e.foldl (fun d entry ↦ d.put entry.1 entry.2) d

/-- The entries under other keys. -/
def without (d : Dict) (keys : List String) : Dict := d.filter fun e ↦ !keys.contains e.1

variable {d : Dict} {key other : String} {value : Value}

/-- The other keys keep their values. -/
@[simp] theorem get_put_of_ne (h : other ≠ key) : get (put d key value) other = get d other := by
  have hlookup : ∀ d : Dict, (d.map fun e ↦ if e.1 = key then (key, value) else e).lookup other =
      d.lookup other := by
    intro d
    induction d with
    | nil => rfl
    | cons e d ih =>
      obtain ⟨k, v⟩ := e
      by_cases hk : k = key
      · subst hk
        have hne : (other == k) = false := beq_eq_false_iff_ne.2 h
        simp only [List.map_cons, if_true, List.lookup_cons, hne, ih]
      · simp only [List.map_cons, if_neg hk, List.lookup_cons, ih]
  have hne : (other == key) = false := beq_eq_false_iff_ne.2 h
  rw [get, get, getD, getD, put]
  split
  · rw [hlookup]
  · rw [List.lookup_append, List.lookup_cons, hne, List.lookup_nil, Option.or_none]

/-- The key has the new value. -/
@[simp] theorem get_put_self : get (put d key value) key = value := by
  have hlookup : ∀ d : Dict, (d.lookup key).isSome →
      (d.map fun e ↦ if e.1 = key then (key, value) else e).lookup key = some value := by
    intro d hmem
    induction d with
    | nil => exact absurd hmem Bool.false_ne_true
    | cons e d ih =>
      obtain ⟨k, v⟩ := e
      by_cases hk : k = key
      · simp only [List.map_cons, if_pos hk, List.lookup_cons, beq_self_eq_true]
      · have hne : (key == k) = false := beq_eq_false_iff_ne.2 (Ne.symm hk)
        rw [List.lookup_cons, hne] at hmem
        simp only [List.map_cons, if_neg hk, List.lookup_cons, hne]
        exact ih hmem
  rw [get, getD, put]
  split
  · next hmem =>
    rw [hlookup d hmem]
    rfl
  · next hmem =>
    rw [List.lookup_append, Option.not_isSome_iff_eq_none.1 hmem, List.lookup_cons, beq_self_eq_true]
    rfl

theorem update_cons (e : String × Value) (es : Dict) : update d (e :: es) = update (d.put e.1 e.2) es := rfl

/-- The keys that stay keep their values. -/
@[simp] theorem get_without_of_notMem {keys : List String} (h : other ∉ keys) :
    get (without d keys) other = get d other := by
  rw [get, get, getD, getD]
  congr 1
  induction d with
  | nil => rfl
  | cons e d ih =>
    obtain ⟨k, v⟩ := e
    by_cases hk : k ∈ keys
    · have hne : (other == k) = false := beq_eq_false_iff_ne.2 fun heq ↦ h (heq ▸ hk)
      have hdrop : without ((k, v) :: d) keys = without d keys :=
        List.filter_cons_of_neg (by simpa using hk)
      rw [hdrop, ih, List.lookup_cons, hne]
    · have hkeep : without ((k, v) :: d) keys = (k, v) :: without d keys :=
        List.filter_cons_of_pos (by simpa using hk)
      rw [hkeep, List.lookup_cons, List.lookup_cons, ih]

end Dict

/-- A dictionary with string keys and values of one type. No key occurs twice. -/
structure Mapping (α : Type) where
  entries : List (String × α)
  nodup : (entries.map Prod.fst).Nodup

namespace Mapping

variable {α : Type}

/-- `key in d` -/
def contains (d : Mapping α) (key : String) : Bool := (d.entries.map Prod.fst).contains key

end Mapping

/-! ### Time -/

/-- An aware `datetime`, in microseconds. -/
abbrev DateTime := ℤ

/-- `timedelta(seconds=n)`. -/
def timedelta (seconds : ℤ) : ℤ := seconds * 1000000

end Py
