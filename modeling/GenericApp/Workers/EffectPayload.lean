import GenericApp.Foundation.Terminated
import Mathlib.Data.String.Basic

/-!
# What the hash of a payload tells apart

An external effect is recorded with a hash of its payload, so that an operation id that comes again with
another payload is noticed. `hash_effect_payload` feeds the parts of the payload to SHA-256, each
followed by a NUL byte. A part is a text, and a text may have a NUL character in it, which is encoded by
the same byte. SHA-256 is a parameter; what is here is about the bytes it is fed.

* `payloadBytes_separates_iff`: payloads without NUL characters are told apart from each other, and no
  others are.
* `payloads_collide`: two e-mails with the same bytes.
-/

namespace GenericApp

/-- `part or ""` -/
def partText (part : Option String) : String := part.getD ""

/-- What `hash_effect_payload` feeds to SHA-256. -/
def payloadBytes (parts : List (Option String)) : ByteArray :=
  parts.foldl (fun digest part ↦ digest ++ (partText part).toByteArray ++ ⟨#[0]⟩) .empty

/-- `hash_effect_payload`. -/
def hashEffectPayload (sha256 : ByteArray → String) (parts : List (Option String)) : String :=
  sha256 (payloadBytes parts)

/-- The payloads have the same parts, where none is the same as the empty text. -/
def SamePayload (parts others : List (Option String)) : Prop := parts.map partText = others.map partText

/-- No part has a NUL character in it. -/
def NulFree (parts : List (Option String)) : Prop := ∀ part ∈ parts, '\x00' ∉ (partText part).toList

/-- The bytes tell the two payloads apart, unless they are the same. -/
def Separates (parts others : List (Option String)) : Prop :=
  payloadBytes parts = payloadBytes others → SamePayload parts others

/-! ### The bytes as a text -/

/-- The characters of the parts. -/
def partChars (parts : List (Option String)) : List (List Char) :=
  parts.map fun part ↦ (partText part).toList

theorem payloadBytes_eq (parts : List (Option String)) :
    payloadBytes parts = (terminated '\x00' (partChars parts)).utf8Encode := by
  have hfold : ∀ digest : ByteArray, parts.foldl
      (fun digest part ↦ digest ++ (partText part).toByteArray ++ ⟨#[0]⟩) digest =
        digest ++ (terminated '\x00' (partChars parts)).utf8Encode := by
    induction parts with
    | nil =>
      intro digest
      exact (ByteArray.append_empty).symm
    | cons part parts ih =>
      intro digest
      have hpart : (partText part).toByteArray = (partText part).toList.utf8Encode :=
        String.utf8Encode_toList.symm
      have hnul : (⟨#[0]⟩ : ByteArray) = ['\x00'].utf8Encode := by decide
      have hcons : terminated '\x00' (partChars (part :: parts)) =
          (partText part).toList ++ (['\x00'] ++ terminated '\x00' (partChars parts)) :=
        terminated_cons _ _
      rw [List.foldl_cons, ih, hcons, List.utf8Encode_append, List.utf8Encode_append, hpart, hnul,
        ByteArray.append_assoc, ByteArray.append_assoc]
  rw [payloadBytes, hfold, ByteArray.empty_append]

theorem payloadBytes_eq_iff (parts others : List (Option String)) :
    payloadBytes parts = payloadBytes others ↔
      terminated '\x00' (partChars parts) = terminated '\x00' (partChars others) := by
  rw [payloadBytes_eq, payloadBytes_eq]
  refine ⟨fun h ↦ ?_, fun h ↦ by rw [h]⟩
  exact String.ofList_injective (String.toByteArray_inj.1 h)

theorem samePayload_iff (parts others : List (Option String)) :
    SamePayload parts others ↔ partChars parts = partChars others := by
  have hchars (ps : List (Option String)) : partChars ps = (ps.map partText).map String.toList := by
    rw [partChars, List.map_map]
    rfl
  rw [hchars, hchars, List.map_inj_right fun _ _ h ↦ String.toList_injective h]
  rfl

theorem nulFree_iff (parts : List (Option String)) :
    NulFree parts ↔ Unstopped '\x00' (partChars parts) := by
  simp only [NulFree, Unstopped, partChars, List.forall_mem_map]

/-- Words as a payload. -/
theorem exists_parts (words : List (List Char)) : ∃ parts, partChars parts = words := by
  refine ⟨words.map fun w ↦ some (String.ofList w), ?_⟩
  rw [partChars, List.map_map]
  exact (List.map_congr_left fun w _ ↦ String.toList_ofList).trans (List.map_id words)

/-! ### What is told apart -/

/-- **Payloads without NUL characters are told apart.** -/
theorem separates_of_nulFree {parts others : List (Option String)} (hparts : NulFree parts)
    (hothers : NulFree others) : Separates parts others := by
  intro h
  rw [nulFree_iff] at hparts hothers
  exact (samePayload_iff _ _).2 (eq_of_terminated_eq hparts hothers ((payloadBytes_eq_iff _ _).1 h))

/-- A single part is all that stands before the last byte. -/
theorem same_of_length_le_one {parts others : List (Option String)} (hlength : parts.length ≤ 1)
    (hothers : others.length = parts.length) : Separates parts others := by
  intro h
  have htext := (payloadBytes_eq_iff _ _).1 h
  match parts, others, hlength, hothers with
  | [], [], _, _ => exact rfl
  | [part], [other], _, _ =>
    have hword : (partText part).toList = (partText other).toList :=
      List.append_cancel_right (List.append_cancel_right htext)
    exact (samePayload_iff _ _).2 (congrArg ([·]) hword)

/-- A payload that is the same as one without NUL characters has none. -/
theorem nulFree_of_same {parts others : List (Option String)} (hothers : NulFree others)
    (h : SamePayload parts others) : NulFree parts := by
  rw [nulFree_iff] at hothers ⊢
  rwa [(samePayload_iff _ _).1 h]

/-- **When payloads are told apart.** The payloads that are told apart from all those without NUL
characters are those without. Among payloads of one length, those that are told apart from all others
are those without, and those of a single part. -/
theorem payloadBytes_separates_iff (parts : List (Option String)) :
    ((∀ others, NulFree others → Separates parts others) ↔ NulFree parts) ∧
      ((∀ others, others.length = parts.length → Separates parts others) ↔
        NulFree parts ∨ parts.length ≤ 1) := by
  refine ⟨⟨fun h ↦ ?_, fun hparts others ↦ separates_of_nulFree hparts⟩, fun h ↦ ?_, ?_⟩
  · -- The parts, cut at their NUL characters.
    obtain ⟨words, hwords, htext⟩ := exists_unstopped '\x00' (partChars parts)
    obtain ⟨others, rfl⟩ := exists_parts words
    have hothers : NulFree others := (nulFree_iff others).2 hwords
    exact nulFree_of_same hothers (h others hothers ((payloadBytes_eq_iff _ _).2 htext.symm))
  · by_contra hnot
    obtain ⟨hnul, hlength⟩ := not_or.1 hnot
    rw [nulFree_iff] at hnul
    obtain ⟨words, hwords, hne, htext⟩ := exists_ne_of_stop_mem
      (by rw [partChars, List.length_map]; omega) hnul
    obtain ⟨others, rfl⟩ := exists_parts words
    have hsame := h others (by rwa [partChars, List.length_map, partChars, List.length_map] at hwords)
      ((payloadBytes_eq_iff _ _).2 htext.symm)
    exact hne ((samePayload_iff _ _).1 hsame).symm
  · rintro (hparts | hlength) others hothers h
    · have hchars : (partChars others).length = (partChars parts).length := by
        rw [partChars, List.length_map, hothers, partChars, List.length_map]
      have hfree := unstopped_of_terminated_eq ((nulFree_iff parts).1 hparts) hchars
        ((payloadBytes_eq_iff _ _).1 h)
      exact separates_of_nulFree hparts ((nulFree_iff others).2 hfree) h
    · exact same_of_length_le_one hlength hothers h

/-- The payload of an e-mail whose subject has a NUL character in it. -/
def nulInSubject : List (Option String) :=
  [some "a@example.com", some "Hi\x00there", some "<p>Hi</p>", none]

/-- The payload of one whose body has it. -/
def nulInBody : List (Option String) :=
  [some "a@example.com", some "Hi", some "there\x00<p>Hi</p>", none]

/-- **Two e-mails with the same bytes.** -/
theorem payloads_collide : ¬ ∀ parts others : List (Option String), Separates parts others := by
  intro h
  have hbytes : payloadBytes nulInSubject = payloadBytes nulInBody := by decide +kernel
  have hsame : SamePayload nulInSubject nulInBody := h _ _ hbytes
  exact absurd hsame (by decide +kernel : ¬ nulInSubject.map partText = nulInBody.map partText)

end GenericApp
