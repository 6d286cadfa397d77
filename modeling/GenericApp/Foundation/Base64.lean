import Mathlib.Data.List.TakeWhile
import GenericApp.Foundation.Text

/-!
# Base64

`urlsafe_b64encode` writes three bytes as four digits, and fills the last group with `=`. `urlsafe_b64decode`
reads as the standard library does when it is not asked to be strict: what is no digit is passed over, and the
reading ends at the padding that completes a group. Between two characters it holds how many digits of the group
it has read, and the bits of the last one that belong to the next byte (`Quad`).

The padding can be dropped and put back, since it is there only to fill the last group
(`urlsafeB64decode_unpadded`).
-/

namespace Py

/-! ### Digits -/

def base64Digits : Text := "ABCDEFGHIJKLMNOPQRSTUVWXYZabcdefghijklmnopqrstuvwxyz0123456789-_".toList

def base64Digit (n : ℕ) : Char := base64Digits.getD n '='

/-- What a character stands for. The digits `+` and `/` of the standard alphabet are still read. -/
def base64Value (c : Char) : Option ℕ :=
  if c = '+' then some 62 else if c = '/' then some 63 else base64Digits.idxOf? c

theorem base64Value_digit : ∀ n < 64, base64Value (base64Digit n) = some n := by decide +kernel

theorem base64Digit_isAscii : ∀ n < 64, (base64Digit n).toNat < 128 := by decide +kernel

theorem base64Digit_ne_pad : ∀ n < 64, base64Digit n ≠ '=' := by decide +kernel

/-! ### Encoding -/

/-- The digits of a list of bytes, without the padding. -/
def base64Body : List UInt8 → Text
  | a :: b :: c :: bytes =>
    base64Digit (a.toNat / 4) :: base64Digit (a.toNat % 4 * 16 + b.toNat / 16) ::
      base64Digit (b.toNat % 16 * 4 + c.toNat / 64) :: base64Digit (c.toNat % 64) :: base64Body bytes
  | [a, b] =>
    [base64Digit (a.toNat / 4), base64Digit (a.toNat % 4 * 16 + b.toNat / 16),
      base64Digit (b.toNat % 16 * 4)]
  | [a] => [base64Digit (a.toNat / 4), base64Digit (a.toNat % 4 * 16)]
  | [] => []

/-- `"=" * (-len(x) % 4)` -/
def base64Padding (x : Text) : Text := List.replicate ((4 - x.length % 4) % 4) '='

/-- `base64.urlsafe_b64encode(bytes).decode()` -/
def urlsafeB64encode (bytes : ByteArray) : Text :=
  base64Body bytes.data.toList ++ base64Padding (base64Body bytes.data.toList)

/-! ### Decoding -/

/-- How far the decoder is in a group of four: the digits read, the bits kept of the last of them, and the
padding characters read after it. -/
structure Quad where
  read : ℕ
  left : ℕ
  pads : ℕ

/-- `binascii.a2b_base64(x)`, the alphabet being the URL-safe one. -/
def decodeQuads (q : Quad) : Text → Option (List UInt8)
  | [] => if q.read = 0 then some [] else none
  | c :: x =>
    if c = '=' then
      if 2 ≤ q.read then
        if 4 ≤ q.read + (q.pads + 1) then some [] else decodeQuads { q with pads := q.pads + 1 } x
      else decodeQuads q x
    else
      match base64Value c with
      | none => decodeQuads q x
      | some v =>
        match q.read with
        | 0 => decodeQuads ⟨1, v, 0⟩ x
        | 1 => (decodeQuads ⟨2, v % 16, 0⟩ x).map (UInt8.ofNat (q.left * 4 + v / 16) :: ·)
        | 2 => (decodeQuads ⟨3, v % 4, 0⟩ x).map (UInt8.ofNat (q.left * 16 + v / 4) :: ·)
        | _ => (decodeQuads ⟨0, 0, 0⟩ x).map (UInt8.ofNat (q.left * 64 + v) :: ·)

/-- `base64.urlsafe_b64decode(x)`, with no value for the `ValueError` of a text that is not ASCII or does not
end with a whole group. -/
def urlsafeB64decode (x : Text) : Option ByteArray :=
  if x.all fun c ↦ c.toNat < 128 then (decodeQuads ⟨0, 0, 0⟩ x).map fun l ↦ ⟨l.toArray⟩ else none

/-! ### The round trip -/

section Digit

variable {n : ℕ} (hn : n < 64) (left pads : ℕ) (x : Text)
include hn

/-- The decoder at a digit. -/
theorem decodeQuads_digit (q : Quad) :
    decodeQuads q (base64Digit n :: x) =
      match q.read with
      | 0 => decodeQuads ⟨1, n, 0⟩ x
      | 1 => (decodeQuads ⟨2, n % 16, 0⟩ x).map (UInt8.ofNat (q.left * 4 + n / 16) :: ·)
      | 2 => (decodeQuads ⟨3, n % 4, 0⟩ x).map (UInt8.ofNat (q.left * 16 + n / 4) :: ·)
      | _ => (decodeQuads ⟨0, 0, 0⟩ x).map (UInt8.ofNat (q.left * 64 + n) :: ·) := by
  rw [decodeQuads, if_neg (base64Digit_ne_pad n hn), base64Value_digit n hn]

theorem decodeQuads_first :
    decodeQuads ⟨0, left, pads⟩ (base64Digit n :: x) = decodeQuads ⟨1, n, 0⟩ x :=
  decodeQuads_digit hn x _

theorem decodeQuads_second {a : UInt8} (ha : left * 4 + n / 16 = a.toNat) :
    decodeQuads ⟨1, left, pads⟩ (base64Digit n :: x) =
      (decodeQuads ⟨2, n % 16, 0⟩ x).map (a :: ·) := by
  rw [decodeQuads_digit hn, ← a.ofNat_toNat, ← ha]
  exact rfl

theorem decodeQuads_third {a : UInt8} (ha : left * 16 + n / 4 = a.toNat) :
    decodeQuads ⟨2, left, pads⟩ (base64Digit n :: x) =
      (decodeQuads ⟨3, n % 4, 0⟩ x).map (a :: ·) := by
  rw [decodeQuads_digit hn, ← a.ofNat_toNat, ← ha]
  exact rfl

theorem decodeQuads_fourth {a : UInt8} (ha : left * 64 + n = a.toNat) :
    decodeQuads ⟨3, left, pads⟩ (base64Digit n :: x) =
      (decodeQuads ⟨0, 0, 0⟩ x).map (a :: ·) := by
  rw [decodeQuads_digit hn, ← a.ofNat_toNat, ← ha]
  exact rfl

end Digit

/-- The induction goes group by group: after four digits the decoder stands where it started. -/
theorem decodeQuads_body (bytes : List UInt8) :
    decodeQuads ⟨0, 0, 0⟩ (base64Body bytes ++ base64Padding (base64Body bytes)) = some bytes := by
  fun_induction base64Body bytes with
  | case1 a b c bytes ih =>
    have ha := a.toNat_lt
    have hb := b.toNat_lt
    have hc := c.toNat_lt
    have hpadding (d e f g : Char) :
        base64Padding (d :: e :: f :: g :: base64Body bytes) = base64Padding (base64Body bytes) := by
      simp only [base64Padding, List.length_cons, Nat.add_assoc, Nat.reduceAdd, Nat.add_mod_right]
    simp only [hpadding, List.cons_append]
    rw [decodeQuads_first (by omega), decodeQuads_second (a := a) (by omega) _ _ _ (by omega),
      decodeQuads_third (a := b) (by omega) _ _ _ (by omega),
      decodeQuads_fourth (a := c) (by omega) _ _ _ (by omega), ih]
    rfl
  | case2 a b =>
    have ha := a.toNat_lt
    have hb := b.toNat_lt
    simp only [List.cons_append]
    rw [decodeQuads_first (by omega), decodeQuads_second (a := a) (by omega) _ _ _ (by omega),
      decodeQuads_third (a := b) (by omega) _ _ _ (by omega)]
    rfl
  | case3 a =>
    have ha := a.toNat_lt
    simp only [List.cons_append]
    rw [decodeQuads_first (by omega), decodeQuads_second (a := a) (by omega) _ _ _ (by omega)]
    rfl
  | case4 => rfl

theorem mem_base64Body {c : Char} {bytes : List UInt8} (h : c ∈ base64Body bytes) :
    ∃ n < 64, c = base64Digit n := by
  fun_induction base64Body bytes with
  | case1 a b d bytes ih =>
    have ha := a.toNat_lt
    have hb := b.toNat_lt
    have hd := d.toNat_lt
    simp only [List.mem_cons] at h
    rcases h with rfl | rfl | rfl | rfl | h
    · exact ⟨_, by omega, rfl⟩
    · exact ⟨_, by omega, rfl⟩
    · exact ⟨_, by omega, rfl⟩
    · exact ⟨_, by omega, rfl⟩
    · exact ih h
  | case2 a b =>
    have ha := a.toNat_lt
    have hb := b.toNat_lt
    simp only [List.mem_cons, List.not_mem_nil, or_false] at h
    rcases h with rfl | rfl | rfl
    · exact ⟨_, by omega, rfl⟩
    · exact ⟨_, by omega, rfl⟩
    · exact ⟨_, by omega, rfl⟩
  | case3 a =>
    have ha := a.toNat_lt
    simp only [List.mem_cons, List.not_mem_nil, or_false] at h
    rcases h with rfl | rfl
    · exact ⟨_, by omega, rfl⟩
    · exact ⟨_, by omega, rfl⟩
  | case4 => exact absurd h List.not_mem_nil

theorem isAscii_of_mem_urlsafeB64encode {c : Char} {bytes : ByteArray}
    (h : c ∈ urlsafeB64encode bytes) : c.toNat < 128 := by
  rcases List.mem_append.1 h with h | h
  · obtain ⟨n, hn, rfl⟩ := mem_base64Body h
    exact base64Digit_isAscii n hn
  · rw [List.eq_of_mem_replicate h]
    decide

theorem urlsafeB64decode_encode (bytes : ByteArray) :
    urlsafeB64decode (urlsafeB64encode bytes) = some bytes := by
  have hascii : ((urlsafeB64encode bytes).all fun c ↦ c.toNat < 128) = true :=
    List.all_eq_true.2 fun c hc ↦ decide_eq_true (isAscii_of_mem_urlsafeB64encode hc)
  rw [urlsafeB64decode, if_pos hascii, urlsafeB64encode, decodeQuads_body, Option.map_some]

/-- `x.rstrip("=")` -/
def stripPadding (x : Text) : Text := (x.reverse.dropWhile (· = '=')).reverse

theorem stripPadding_append {x : Text} (hx : '=' ∉ x) (n : ℕ) :
    stripPadding (x ++ List.replicate n '=') = x := by
  rw [stripPadding, List.reverse_append, List.reverse_replicate, List.dropWhile_append_of_pos]
  · rw [List.dropWhile_eq_self_iff.2, List.reverse_reverse]
    intro hlength hpad
    rw [← of_decide_eq_true hpad] at hx
    exact hx (List.mem_reverse.1 (List.getElem_mem hlength))
  · intro c hc
    rw [List.eq_of_mem_replicate hc]
    rfl

theorem pad_notMem_base64Body (bytes : List UInt8) : '=' ∉ base64Body bytes := by
  intro h
  obtain ⟨n, hn, heq⟩ := mem_base64Body h
  exact base64Digit_ne_pad n hn heq.symm

/-- The padding is what the digits lack to a whole group. -/
theorem urlsafeB64decode_unpadded (bytes : ByteArray) :
    urlsafeB64decode (stripPadding (urlsafeB64encode bytes) ++
      base64Padding (stripPadding (urlsafeB64encode bytes))) = some bytes := by
  rw [urlsafeB64encode, base64Padding, stripPadding_append (pad_notMem_base64Body _)]
  exact urlsafeB64decode_encode bytes

end Py
