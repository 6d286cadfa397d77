import GenericApp.Foundation.Json
import GenericApp.Platform.EmailTemplates

/-!
# The prompts of a run

`_render_template` puts variables into a prompt with the pattern of the e-mails, and a name may not begin with a digit
here. So prompts, too, come out as they went in, and a run sends the text of its version to the model.

`rendering_iff`: prompts and e-mails are rendered as they should be if and only if the values spell the template itself,
and a template is for all values if and only if it has no placeholder.
-/

namespace GenericApp

open Py

/-- `[a-zA-Z_]` -/
def isWordStart (c : Char) : Bool := c.isAlpha || c = '_'

/-- The value of a variable. All but `None`, lists and dictionaries is written with `str`. -/
inductive PromptVariable (V : Type)
  | none
  | list (items : List Json)
  | dict (members : List (Text × Json))
  | other (value : V)

section Prompts

variable {V : Type} (str : V → Text)

/-- What is put in for a variable. -/
def variableText : Option (PromptVariable V) → Text
  | .none | some .none => []
  | some (.list items) => jsonDumps (.array items)
  | some (.dict members) => jsonDumps (.object members)
  | some (.other value) => str value

/-- What is put in for a name. -/
def promptValue (values : Mapping (PromptVariable V)) (name : Text) : Text :=
  variableText str (values.get? (String.ofList name))

/-- `_render_template` -/
def renderTemplate (template : Text) (values : Mapping (PromptVariable V)) : Text :=
  substitute (placeholderPattern isWordStart) (fun found ↦ promptValue str values (groupOne found)) 0 template

/-- The messages of a run: the system prompt, with more behind it if there is more, and the prompt of the user. -/
def inputMessages (systemPrompt userPromptTemplate : Text) (additionalSystemContext : Option Text)
    (values : Mapping (PromptVariable V)) : Text × Text :=
  let renderedSystemPrompt := renderTemplate str systemPrompt values
  let additional := additionalSystemContext.getD []
  (if additional = [] then renderedSystemPrompt
    else (renderedSystemPrompt.reverse.dropWhile isSpace).reverse ++ ('\n' :: '\n' :: additional),
    renderTemplate str userPromptTemplate values)

/-! ### What is rendered -/

theorem isWord_of_isWordStart {c : Char} (h : isWordStart c = true) : isWord c = true := by
  rcases Bool.or_eq_true_iff.1 h with halpha | hunderscore
  · exact Bool.or_eq_true_iff.2 (.inl (Bool.or_eq_true_iff.2 (.inl halpha)))
  · exact Bool.or_eq_true_iff.2 (.inr hunderscore)

theorem renderTemplate_text (template : Template isWordStart) (values : Mapping (PromptVariable V)) :
    renderTemplate str template.text values = template.text :=
  substitute_template template (fun _ ↦ isWord_of_isWordStart) _

theorem renderTemplateString_text (template : Template isWord) (context : Mapping Text) :
    renderTemplateString template.text context = template.text :=
  substitute_template template (fun _ h ↦ h) _

/-- **The messages of a run are those of its version**, whatever the variables are. -/
theorem inputMessages_text (system user : Template isWordStart) (values : Mapping (PromptVariable V)) :
    inputMessages str system.text user.text none values = (system.text, user.text) := by
  rw [inputMessages, renderTemplate_text, renderTemplate_text]
  rfl

/-! ### What is asked for -/

/-- A prompt is rendered as it should be. -/
def RendersPrompt (template : Template isWordStart) (values : Mapping (PromptVariable V)) : Prop :=
  renderTemplate str template.text values = template.rendered (promptValue str values)

/-- An e-mail is rendered as it should be. -/
def RendersEmail (template : Template isWord) (context : Mapping Text) : Prop :=
  renderTemplateString template.text context = template.rendered (contextValue context)

theorem rendersPrompt_iff (template : Template isWordStart) (values : Mapping (PromptVariable V)) :
    RendersPrompt str template values ↔ template.SpellsItself (promptValue str values) := by
  rw [RendersPrompt, renderTemplate_text, Template.SpellsItself]

theorem rendersEmail_iff (template : Template isWord) (context : Mapping Text) :
    RendersEmail template context ↔ template.SpellsItself (contextValue context) := by
  rw [RendersEmail, renderTemplateString_text, Template.SpellsItself]

/-- A template without placeholders is spelled by any values. -/
theorem Template.spellsItself_of_nil {first : Char → Bool} {template : Template first} (h : template.parts = [])
    (value : Text → Text) : template.SpellsItself value := by
  rw [Template.SpellsItself, Template.text, Template.rendered, Template.spelled, Template.spelled, h]
  rfl

/-- **When templates are rendered.** A prompt or an e-mail is rendered as it should be if and only if the values that
belong to its names spell the template itself; so a template is for all values if and only if it has no placeholder; and
a default e-mail holds the address to go to if and only if it does so as it is stored. -/
theorem rendering_iff :
    (∀ template values, RendersPrompt str template values ↔ template.SpellsItself (promptValue str values)) ∧
    (∀ template, (∀ values, RendersPrompt str template values) ↔ template.parts = []) ∧
    (∀ template context, RendersEmail template context ↔ template.SpellsItself (contextValue context)) ∧
    (∀ template, (∀ context, RendersEmail template context) ↔ template.parts = []) ∧
    ∀ stored ∈ defaultEmailTemplates, ∀ context fallback url, context.get? "action_url" = some url →
      (CarriesActionUrl url (renderEmailTemplate (some stored) context fallback).2.1
          (renderEmailTemplate (some stored) context fallback).2.2 ↔
        CarriesActionUrl url stored.htmlTemplate stored.textTemplate) := by
  refine ⟨rendersPrompt_iff str, fun template ↦ ⟨fun h ↦ ?_, fun h values ↦ ?_⟩, rendersEmail_iff,
    fun template ↦ ⟨fun h ↦ ?_, fun h context ↦ ?_⟩, fun stored hstored context fallback url _ ↦ ?_⟩
  · exact template.spellsItself_nil_iff.1 ((rendersPrompt_iff str template .empty).1 (h .empty))
  · exact (rendersPrompt_iff str template values).2 (Template.spellsItself_of_nil h _)
  · exact template.spellsItself_nil_iff.1 ((rendersEmail_iff template .empty).1 (h .empty))
  · exact (rendersEmail_iff template context).2 (Template.spellsItself_of_nil h _)
  · rw [renderEmailTemplate_default hstored]

end Prompts

/-- A link that an account e-mail is sent for. -/
def exampleResetLink : Text := "http://localhost:5173/reset-password?token=abc".toList

/-- The e-mail to reset a password does not hold its link. -/
theorem rendering_iff_reset : ¬CarriesActionUrl exampleResetLink
    (renderEmailTemplate (some resetPasswordTemplate) (Mapping.empty.put "action_url" exampleResetLink) ([], [], none)).2.1
    (renderEmailTemplate (some resetPasswordTemplate) (Mapping.empty.put "action_url" exampleResetLink) ([], [], none)).2.2 := by
  intro hcarries
  have hstored := ((rendering_iff (V := Text) id).2.2.2.2 resetPasswordTemplate (List.mem_cons_of_mem _ List.mem_cons_self)
    (Mapping.empty.put "action_url" exampleResetLink) ([], [], none) exampleResetLink rfl).1 hcarries
  have hplain := (isPlain_default (List.mem_cons_of_mem _ List.mem_cons_self : resetPasswordTemplate ∈ defaultEmailTemplates)).2.2.1
  have hmark : '?' ∉ resetPasswordTemplate.htmlTemplate := notMem_of_isPlain hplain (show isPlain '?' = false from rfl)
  have hlink : '?' ∈ exampleResetLink := by
    have hcharacters : exampleResetLink = _ := toList_of_eq rfl
    rw [hcharacters]
    decide
  exact hmark (hstored.1.subset hlink)

/-- A greeting with the name of who is greeted. -/
def greetingTemplate : Template isWordStart where
  start := "Hello ".toList
  parts := [(⟨[], 'n', "ame".toList, [], List.all_eq_true.1 rfl, rfl, List.all_eq_true.1 (by decide)⟩, ['!'])]
  literals := by decide

/-- **A name is not put into a greeting.** -/
theorem greeting_unrendered :
    ¬∀ (template : Template isWordStart) (values : Mapping (PromptVariable Text)), RendersPrompt id template values := by
  intro h
  have hrendered := h greetingTemplate (Mapping.empty.put "name" (.other "Ada".toList))
  rw [RendersPrompt, renderTemplate_text] at hrendered
  exact absurd hrendered (by decide +kernel)

end GenericApp
