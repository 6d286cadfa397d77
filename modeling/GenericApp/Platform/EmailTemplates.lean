import GenericApp.Foundation.Mapping
import GenericApp.Foundation.Patterns

/-!
# Templates with placeholders

Prompts and e-mails are written with placeholders, a name between two braces and two more, and both renderers put the
values in with a pattern. Its backslashes are doubled although the string is a raw one: it looks for a backslash in the
text, and for letters `s`, where white space was meant. So a placeholder as it is written is never found, and a template
comes out as it went in (`substitute_placeholders`).

Here are the templates as they are meant, that pattern, and the e-mails.
-/

namespace GenericApp

open Py

/-! ### Templates -/

/-- `[a-zA-Z0-9_]` -/
def isWord (c : Char) : Bool := c.isAlphanum || c = '_'

/-- A placeholder, as it is written. -/
structure Placeholder (first : Char → Bool) where
  before : Text
  head : Char
  tail : Text
  after : Text
  blank : ∀ c ∈ before ++ after, isSpace c = true
  named : first head = true ∧ ∀ c ∈ tail, isWord c = true

namespace Placeholder

variable {first : Char → Bool} (placeholder : Placeholder first)

def name : Text := placeholder.head :: placeholder.tail

/-- What stands behind the opening braces. -/
def inner : Text := placeholder.before ++ (placeholder.name ++ (placeholder.after ++ ['}', '}']))

def text : Text := '{' :: '{' :: placeholder.inner

end Placeholder

/-- A template: literal text, and placeholders with the literal text behind each. -/
structure Template (first : Char → Bool) where
  start : Text
  parts : List (Placeholder first × Text)
  literals : ∀ l ∈ start :: parts.map Prod.snd, ¬['{', '{'] <:+: l

namespace Template

variable {first : Char → Bool} (template : Template first)

/-- The template with something in the place of each placeholder. -/
def spelled (value : Placeholder first → Text) : Text :=
  template.start ++ template.parts.flatMap fun (placeholder, behind) ↦ value placeholder ++ behind

/-- The template as it is written. -/
def text : Text := template.spelled Placeholder.text

/-- What rendering is for: the value of its name in the place of each placeholder, in one pass. -/
def rendered (value : Text → Text) : Text := template.spelled fun placeholder ↦ value placeholder.name

/-- The values spell the template as it is written. -/
def SpellsItself (value : Text → Text) : Prop := template.text = template.rendered value

end Template

/-! ### The pattern -/

/-- What the pattern begins with. -/
def patternStart : Text := ['{', '{', '\\']

/-- The pattern behind its start: letters `s`, a name, a backslash, letters `s`, and two braces. -/
def patternRest (first : Char → Bool) : List PatternPiece :=
  [.run fun c ↦ c = 's', .one first, .run isWord] ++ literal ['\\'] ++ [.run fun c ↦ c = 's'] ++ literal ['}', '}']

/-- `PLACEHOLDER_PATTERN`: two braces, `\\s*`, a name in a group, `\\s*`, two braces, in a raw string. -/
def placeholderPattern (first : Char → Bool) : List PatternPiece := literal patternStart ++ patternRest first

/-- `match.group(1)` -/
def groupOne (found : List Text) : Text := ((found.drop 4).take 2).flatten

variable {first : Char → Bool} {x l : Text}

theorem not_infix_cons {c : Char} {p : Text} (h : ¬p <:+: x) (hstart : ¬p <+: c :: x) : ¬p <:+: c :: x := by
  rw [List.infix_cons_iff, not_or]
  exact ⟨hstart, h⟩

/-- A run without the first character of a text does not hold its start. -/
theorem not_infix_append_of_notMem {c : Char} {p : Text} (hl : c ∉ l) (h : ¬c :: p <:+: x) : ¬c :: p <:+: l ++ x := by
  induction l with
  | nil => exact h
  | cons d l ih =>
    refine not_infix_cons (ih fun hmem ↦ hl (List.mem_cons_of_mem d hmem)) fun hstart ↦ hl ?_
    exact (List.cons_prefix_cons.1 hstart).1 ▸ List.mem_cons_self

/-- Literal text before a placeholder, or at the end, does not hold the start of the pattern. -/
theorem not_infix_literal (hl : ¬['{', '{'] <:+: l) (hx : x = [] ∨ ∃ y, x = '{' :: '{' :: y)
    (h : ¬patternStart <:+: x) : ¬patternStart <:+: l ++ x := by
  induction l with
  | nil => exact h
  | cons c l ih =>
    rw [List.infix_cons_iff, not_or] at hl
    refine not_infix_cons (ih hl.2) fun hstart ↦ ?_
    obtain ⟨rfl, hsecond⟩ := List.cons_prefix_cons.1 hstart
    cases l with
    | nil =>
      -- the second brace would be the first of the placeholder, which has another one behind it
      obtain rfl | ⟨y, rfl⟩ := hx
      · exact nomatch List.prefix_nil.1 hsecond
      · exact absurd (List.cons_prefix_cons.1 (List.cons_prefix_cons.1 hsecond).2).1 (by decide)
    | cons d l =>
      obtain ⟨rfl, -⟩ := List.cons_prefix_cons.1 hsecond
      exact hl.1 (List.cons_prefix_cons.2 ⟨rfl, List.cons_prefix_cons.2 ⟨rfl, List.nil_prefix⟩⟩)

theorem isSpace_or_isWord_of_mem {placeholder : Placeholder first} (hfirst : ∀ c, first c = true → isWord c = true)
    {c : Char} (h : c ∈ placeholder.before ++ (placeholder.name ++ placeholder.after)) :
    isSpace c = true ∨ isWord c = true := by
  rcases List.mem_append.1 h with hbefore | h
  · exact .inl (placeholder.blank c (List.mem_append_left _ hbefore))
  rcases List.mem_append.1 h with hname | hafter
  · rcases List.mem_cons.1 hname with rfl | htail
    · exact .inr (hfirst _ placeholder.named.1)
    · exact .inr (placeholder.named.2 c htail)
  · exact .inl (placeholder.blank c (List.mem_append_right _ hafter))

/-- A placeholder does not hold the start of the pattern, and the text behind it begins nothing with it. -/
theorem not_infix_placeholder (placeholder : Placeholder first) (hfirst : ∀ c, first c = true → isWord c = true)
    (h : ¬patternStart <:+: x) : ¬patternStart <:+: placeholder.text ++ x := by
  have hwords {c : Char} (hc : c ∈ placeholder.before ++ (placeholder.name ++ placeholder.after)) : c ≠ '{' ∧ c ≠ '\\' := by
    constructor <;> rintro rfl <;>
      exact (isSpace_or_isWord_of_mem hfirst hc).elim (fun h ↦ nomatch h) fun h ↦ nomatch h
  have hinner : placeholder.inner = placeholder.before ++ (placeholder.name ++ placeholder.after) ++ ['}', '}'] := by
    simp [Placeholder.inner]
  obtain ⟨c, u, hu⟩ : ∃ c u, placeholder.before ++ (placeholder.name ++ placeholder.after) = c :: u :=
    List.exists_cons_of_ne_nil fun hnil ↦ nomatch (List.append_eq_nil_iff.1 (List.append_eq_nil_iff.1 hnil).2).1
  have hc := hwords (hu ▸ List.mem_cons_self)
  have hnot : ¬patternStart <:+: placeholder.inner ++ x := by
    refine not_infix_append_of_notMem (fun hmem ↦ ?_) h
    rw [hinner] at hmem
    rcases List.mem_append.1 hmem with hmem | hmem
    · exact (hwords hmem).1 rfl
    · exact absurd hmem (by decide)
  rw [hinner, hu] at hnot
  rw [Placeholder.text, hinner, hu]
  refine not_infix_cons (not_infix_cons hnot fun hstart ↦ ?_) fun hstart ↦ ?_
  · exact hc.1 (List.cons_prefix_cons.1 (List.cons_prefix_cons.1 hstart).2).1.symm
  · exact hc.2 (List.cons_prefix_cons.1 (List.cons_prefix_cons.1 (List.cons_prefix_cons.1 hstart).2).2).1.symm

/-- **The pattern is found in no template.** -/
theorem Template.not_infix_text (template : Template first) (hfirst : ∀ c, first c = true → isWord c = true) :
    ¬patternStart <:+: template.text := by
  obtain ⟨start, parts, literals⟩ := template
  show ¬patternStart <:+: start ++ _
  induction parts generalizing start with
  | nil =>
    exact not_infix_literal (literals start List.mem_cons_self) (.inl rfl) fun h ↦ nomatch List.infix_nil.1 h
  | cons part parts ih =>
    rw [List.flatMap_cons, List.append_assoc]
    refine not_infix_literal (literals start List.mem_cons_self) (.inr ⟨_, rfl⟩) ?_
    exact not_infix_placeholder part.1 hfirst (ih part.2 fun l hl ↦ literals l (List.mem_cons_of_mem start hl))

/-- **A template comes out as it went in.** -/
theorem substitute_template (template : Template first) (hfirst : ∀ c, first c = true → isWord c = true)
    (replace : List Text → Text) : substitute (placeholderPattern first) replace 0 template.text = template.text :=
  substitute_eq_self (template.not_infix_text hfirst)

/-- Where no value has a character, a template with a placeholder is not what is asked for. -/
theorem Template.spellsItself_nil_iff (template : Template first) :
    template.SpellsItself (fun _ ↦ []) ↔ template.parts = [] := by
  constructor
  · intro h
    rcases hparts : template.parts with - | ⟨part, parts⟩
    · rfl
    have hle (parts : List (Placeholder first × Text)) :
        (parts.flatMap fun part ↦ [] ++ part.2).length ≤ (parts.flatMap fun part ↦ part.1.text ++ part.2).length := by
      induction parts with
      | nil => exact le_refl _
      | cons part parts ih =>
        simp only [List.flatMap_cons, List.length_append, List.length_nil]
        omega
    have hlength := congrArg List.length h
    simp only [Template.text, Template.rendered, Template.spelled, hparts, List.flatMap_cons, List.length_append,
      Placeholder.text, List.length_cons, List.length_nil] at hlength
    have hrest := hle parts
    simp only [Placeholder.text] at hrest
    omega
  · intro hparts
    simp only [Template.SpellsItself, Template.text, Template.rendered, Template.spelled, hparts]
    rfl

/-! ### E-mails -/

/-- What rendering reads of an e-mail template. -/
structure EmailTemplate where
  key : String
  subjectTemplate : Text
  htmlTemplate : Text
  textTemplate : Option Text
  isActive : Bool

/-- `str(context.get(key, ""))` -/
def contextValue (context : Mapping Text) (name : Text) : Text := (context.get? (String.ofList name)).getD []

/-- `EmailTemplateService._render_template_string` -/
def renderTemplateString (template : Text) (context : Mapping Text) : Text :=
  substitute (placeholderPattern isWord) (fun found ↦ contextValue context (groupOne found)) 0 template

/-- `EmailTemplateService.render_email_template`, on what is stored under the key: subject, HTML and text. -/
def renderEmailTemplate (stored : Option EmailTemplate) (context : Mapping Text) (fallback : Text × Text × Option Text) :
    Text × Text × Option Text :=
  match stored with
  | none => fallback
  | some template =>
    if template.isActive then
      (renderTemplateString template.subjectTemplate context, renderTemplateString template.htmlTemplate context,
        template.textTemplate.bind fun body ↦ if body = [] then none else some (renderTemplateString body context))
    else fallback

-- What is found has backslashes between the name and the braces.
example : renderTemplateString ['{', '{', '\\', 's', 's', 'a', '\\', '}', '}', '.'] (Mapping.empty.put "sa" ['x']) =
    ['.'] := by decide +kernel

-- The braces of the placeholders are written as escapes in the strings below.

def verifyEmailTemplate : EmailTemplate where
  key := "auth.verify_email"
  subjectTemplate := "\x7b\x7bapp_name\x7d\x7d: verify your email address".toList
  htmlTemplate :=
    ("<p>Thanks for joining \x7b\x7bapp_name\x7d\x7d.</p>" ++
      "<p>Verify your email by opening <a href=\"\x7b\x7baction_url\x7d\x7d\">this link</a>.</p>" ++
      "<p>If you did not create an account for" ++
      " \x7b\x7brecipient_email\x7d\x7d, you can ignore this email.</p>").toList
  textTemplate := some
    ("Thanks for joining \x7b\x7bapp_name\x7d\x7d.\n" ++
      "Verify your email by opening: \x7b\x7baction_url\x7d\x7d\n" ++
      "If you did not create an account for \x7b\x7brecipient_email\x7d\x7d, ignore this email.").toList
  isActive := true

def resetPasswordTemplate : EmailTemplate where
  key := "auth.reset_password"
  subjectTemplate := "\x7b\x7bapp_name\x7d\x7d: reset your password".toList
  htmlTemplate :=
    ("<p>We received a password reset request for \x7b\x7brecipient_email\x7d\x7d.</p>" ++
      "<p>Use <a href=\"\x7b\x7baction_url\x7d\x7d\">this secure link</a> to choose a new password.</p>" ++
      "<p>If you did not request this, you can ignore this email.</p>").toList
  textTemplate := some
    ("We received a password reset request for \x7b\x7brecipient_email\x7d\x7d.\n" ++
      "Use this secure link to choose a new password: \x7b\x7baction_url\x7d\x7d\n" ++
      "If you did not request this, you can ignore this email.").toList
  isActive := true

def defaultEmailTemplates : List EmailTemplate := [verifyEmailTemplate, resetPasswordTemplate]

/-- Both bodies of an e-mail hold the address to go to. -/
def CarriesActionUrl (url html : Text) (body : Option Text) : Prop := url <:+: html ∧ ∃ text ∈ body, url <:+: text

/-- Text without a backslash comes out as it went in. -/
theorem renderTemplateString_of_notMem {template : Text} (h : '\\' ∉ template) (context : Mapping Text) :
    renderTemplateString template context = template :=
  substitute_eq_self fun hstart ↦ h (hstart.subset (by decide))

/-- Neither a backslash nor a question mark. -/
def isPlain (c : Char) : Bool := c ≠ '\\' && c ≠ '?'

theorem notMem_of_isPlain {c : Char} (h : x.all isPlain = true) (hc : isPlain c = false) : c ∉ x :=
  fun hmem ↦ Bool.false_ne_true (hc.symm.trans (List.all_eq_true.1 h c hmem))

/-- The default e-mails are active and written without backslashes and question marks. -/
theorem isPlain_default {stored : EmailTemplate} (h : stored ∈ defaultEmailTemplates) :
    stored.isActive = true ∧ stored.subjectTemplate.all isPlain = true ∧ stored.htmlTemplate.all isPlain = true ∧
      ∃ body, stored.textTemplate = some body ∧ body ≠ [] ∧ body.all isPlain = true := by
  rcases List.mem_cons.1 h with rfl | h
  · refine ⟨rfl, ?_, ?_, _, rfl, ?_, ?_⟩
    · rw [verifyEmailTemplate, toList_of_eq rfl]
      decide +kernel
    · simp only [verifyEmailTemplate, String.toList_append, List.all_append, Bool.and_eq_true]
      refine ⟨⟨⟨?_, ?_⟩, ?_⟩, ?_⟩ <;> (rw [toList_of_eq rfl]; decide +kernel)
    · rw [String.toList_append, String.toList_append, toList_of_eq rfl]
      exact List.cons_ne_nil _ _
    · simp only [String.toList_append, List.all_append, Bool.and_eq_true]
      refine ⟨⟨?_, ?_⟩, ?_⟩ <;> (rw [toList_of_eq rfl]; decide +kernel)
  · rw [List.mem_singleton.1 h]
    refine ⟨rfl, ?_, ?_, _, rfl, ?_, ?_⟩
    · rw [resetPasswordTemplate, toList_of_eq rfl]
      decide +kernel
    · simp only [resetPasswordTemplate, String.toList_append, List.all_append, Bool.and_eq_true]
      refine ⟨⟨?_, ?_⟩, ?_⟩ <;> (rw [toList_of_eq rfl]; decide +kernel)
    · rw [String.toList_append, String.toList_append, toList_of_eq rfl]
      exact List.cons_ne_nil _ _
    · simp only [String.toList_append, List.all_append, Bool.and_eq_true]
      refine ⟨⟨?_, ?_⟩, ?_⟩ <;> (rw [toList_of_eq rfl]; decide +kernel)

/-- **The default e-mails go out as they are stored.** -/
theorem renderEmailTemplate_default {stored : EmailTemplate} (h : stored ∈ defaultEmailTemplates) (context : Mapping Text)
    (fallback : Text × Text × Option Text) : renderEmailTemplate (some stored) context fallback =
      (stored.subjectTemplate, stored.htmlTemplate, stored.textTemplate) := by
  obtain ⟨hactive, hsubject, hhtml, body, htext, hne, hbody⟩ := isPlain_default h
  rw [renderEmailTemplate, if_pos hactive, htext, Option.bind_some, if_neg hne,
    renderTemplateString_of_notMem (notMem_of_isPlain hsubject rfl),
    renderTemplateString_of_notMem (notMem_of_isPlain hhtml rfl),
    renderTemplateString_of_notMem (notMem_of_isPlain hbody rfl)]

end GenericApp
