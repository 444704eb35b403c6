import Eeemail.Lib.Runs
import Eeemail.Store
import Eeemail.Desktop.RichText

/-! # The composer

`desktop/src/views/composer.ts`: the form that a message is written in, and the
draft that a repaint draws the form from.  Fields and plain text are saved at
every input, a formatted body only some time after the last one, and it comes
back through the filter of what is sent.  A repaint shows what was shown before
if the formatted body was saved by then and passes the filter, and if the plain
text does not begin with a line break, which the markup of a text area swallows. -/

set_option autoImplicit false

namespace Eeemail.Desktop.Composer

open Lib.Texts Lib.Runs Store Desktop.Fields Desktop.RichText

/-- The editor for formatted text, Squire: what it makes of the nodes of a fragment, and the
markup of what it holds. -/
class Editor where
  Content : Type
  empty : Content
  getHTML : Content → Text
  load : List Node → Content

inductive Field where
  | to
  | cc
  | bcc
  | subject
  deriving DecidableEq, Repr

structure Choices where
  showCc : Bool := false
  showBcc : Bool := false
  encrypt : Option Bool := none
  attachment : Option Attachment := none
  importance : Option Importance := none
  deriving DecidableEq, Repr

structure Draft where
  fields : Field → Text
  body : Text
  html : Option Text
  choices : Choices

section

variable [Editor] [Unicode] [Browser]

/-- Every markup the editor is given goes through the filter of what is sent. -/
def sanitizeToFragment (html : Text) : List Node :=
  Browser.parse (innerHtml .editor (Browser.parse html))

def setHTML (html : Text) : Editor.Content := Editor.load (sanitizeToFragment html)

/-- The form on screen: what its inputs hold, and the variables of the closure that
drew it. -/
structure Form where
  draft : Draft
  input : Field → Text
  plain : Text
  rich : Editor.Content
  formatted : Bool
  /-- Whether `richTimer` is running. -/
  timer : Bool

def renderComposer (draft : Draft) : Form where
  draft := draft
  input field := inputValue (escapeHtml (draft.fields field))
  plain := textareaValue (escapeHtml draft.body)
  rich :=
    match draft.html with
    | some html => setHTML html
    | none => Editor.empty
  formatted := draft.html.isSome
  timer := false

theorem renderComposer_input (draft : Draft) (field : Field) :
    (renderComposer draft).input field = inputValue (escapeHtml (draft.fields field)) := by
  rw [renderComposer]

theorem renderComposer_plain (draft : Draft) :
    (renderComposer draft).plain = textareaValue (escapeHtml draft.body) := by
  rw [renderComposer]

def saveFields (form : Form) : Form :=
  { form with
    draft :=
      { form.draft with
        fields := form.input
        body := if form.formatted then form.draft.body else form.plain } }

def saveRich (form : Form) : Form :=
  if form.formatted then
    { form with draft := { form.draft with html := some (Editor.getHTML form.rich) } }
  else form

def placeRich (html : Text) (form : Form) : Form :=
  saveRich { form with rich := setHTML html }

def placePlain (text : Text) (form : Form) : Form :=
  { form with
    plain := normalizeNewlines text
    draft := { form.draft with body := normalizeNewlines text } }

/-! ## What is shown -/

inductive Body where
  | plain (text : Text)
  | rich (content : Editor.Content)

/-- Recipients, subject, body with its mode, and choices, as the form shows them. -/
@[ext]
structure View where
  input : Field → Text
  body : Body
  choices : Choices

def Form.view (form : Form) : View where
  input := form.input
  body := if form.formatted then .rich form.rich else .plain form.plain
  choices := form.draft.choices

def opened (fields : Field → Text) (body : Text) : Draft :=
  { fields, body, html := none, choices := {} }

/-- What a repaint needs: a formatted body that was saved and that the editor shows again, or one
that was not changed since the editor was given it, and texts that survive the markup of the
form. -/
structure Kept (form : Form) : Prop where
  fields : ∀ field, '\x00' ∉ form.input field
  rich : form.formatted = true → ∀ html, form.draft.html = some html →
    (html = Editor.getHTML form.rich → setHTML (Editor.getHTML form.rich) = form.rich) ∧
      (html ≠ Editor.getHTML form.rich → setHTML html = form.rich)
  plain : form.formatted = false → form.draft.body = form.plain →
    '\x00' ∉ form.plain ∧ form.plain.head? ≠ some '\n'

/-! ## Drafts -/

structure Follows (form : Form) : Prop where
  mode : form.formatted = form.draft.html.isSome
  unbroken : ∀ field, ∀ c ∈ form.input field, isNewline c = false
  fields : ∀ field, form.draft.fields field = form.input field ∨
    form.input field = inputValue (escapeHtml (form.draft.fields field))
  lines : '\r' ∉ form.plain
  body : form.formatted = false → form.draft.body = form.plain ∨
    form.plain = textareaValue (escapeHtml form.draft.body)

theorem follows_renderComposer (draft : Draft) : Follows (renderComposer draft) := by
  refine ⟨rfl, ?_, fun field => Or.inr (renderComposer_input draft field), ?_,
    fun _ => Or.inr (renderComposer_plain draft)⟩
  · intro field c member
    rw [renderComposer_input] at member
    have held := held_of_mem_inputValue member
    simp only [isUnheld, Bool.or_eq_false_iff] at held
    exact held.1
  · rw [renderComposer_plain]
    exact not_mem_textareaValue _

variable {form : Form}

section

variable (follows : Follows form)

include follows

omit [Unicode] [Browser] in
theorem Follows.saveFields {input : Field → Text} {plain : Text}
    (unbroken : ∀ field, ∀ c ∈ input field, isNewline c = false) (lines : '\r' ∉ plain) :
    Follows (saveFields { form with input, plain }) where
  mode := follows.mode
  unbroken := unbroken
  fields := fun _ => Or.inl rfl
  lines := lines
  body := by
    intro isPlain
    have notRich : ¬form.formatted = true := fun isRich => nomatch isRich.symm.trans isPlain
    exact Or.inl (if_neg notRich)

omit [Unicode] [Browser] in
theorem Follows.saveRich : Follows (saveRich form) := by
  unfold Composer.saveRich
  split
  next isRich =>
    exact ⟨isRich, follows.unbroken, follows.fields, follows.lines, follows.body⟩
  next => exact follows

theorem Follows.placeRich (html : Text) : Follows (placeRich html form) :=
  have placed : Follows { form with rich := setHTML html } :=
    ⟨follows.mode, follows.unbroken, follows.fields, follows.lines, follows.body⟩
  placed.saveRich

omit [Unicode] [Browser] in
theorem Follows.placePlain (text : Text) :
    Follows (placePlain text form) where
  mode := follows.mode
  unbroken := follows.unbroken
  fields := follows.fields
  lines := not_mem_normalizeNewlines text
  body := fun _ => Or.inl rfl

end

/-! ## Runs -/

def setFormatted (on : Bool) (form : Form) : Form :=
  if on = form.formatted then form
  else if on then placeRich (fromText form.plain) { form with formatted := true }
  else
    let switched := placePlain (compose (Editor.getHTML form.rich)).text form
    { switched with formatted := false, draft := { switched.draft with html := none } }

inductive Event where
  | typeField (field : Field) (value : Text)
  | typePlain (value : Text)
  /-- The editor changes what it holds.  A toolbar command need not be heard by the form. -/
  | editRich (content : Editor.Content) (heard : Bool)
  | timer
  | setFormatted (on : Bool)
  /-- `toggleSignature`, for which the body becomes this text or this markup. -/
  | toggleSignature (text html : Text)
  | choose (choices : Choices)
  | repaint

def step (form : Form) : Event → Form
  | .typeField field value =>
    saveFields
      { form with
        input := Function.update form.input field (value.filter fun c => !isNewline c) }
  -- The body that is hidden cannot be typed into.
  | .typePlain value =>
    if form.formatted then form
    else saveFields { form with plain := normalizeNewlines value }
  | .editRich content heard =>
    if form.formatted then { form with rich := content, timer := form.timer || heard } else form
  | .timer => if form.timer then { saveRich form with timer := false } else form
  | .setFormatted on => setFormatted on form
  | .toggleSignature text html =>
    if form.formatted then placeRich html form else placePlain text form
  | .choose choices => { form with draft := { form.draft with choices } }
  | .repaint => renderComposer form.draft

theorem Follows.setFormatted (follows : Follows form) (on : Bool) :
    Follows (setFormatted on form) := by
  unfold Composer.setFormatted
  split
  next => exact follows
  next switched =>
    cases on with
    | true =>
      rw [if_pos rfl]
      exact ⟨rfl, follows.unbroken, follows.fields, follows.lines,
        fun isPlain => nomatch isPlain⟩
    | false =>
      rw [if_neg Bool.false_ne_true]
      have placed := follows.placePlain (compose (Editor.getHTML form.rich)).text
      exact ⟨rfl, placed.unbroken, placed.fields, placed.lines, fun _ => Or.inl rfl⟩

theorem Follows.step (follows : Follows form) (event : Event) : Follows (step form event) := by
  cases event with
  | typeField field value =>
    refine follows.saveFields (fun other c member => ?_) follows.lines
    by_cases isField : other = field
    · subst isField
      rw [Function.update_self] at member
      simpa using (List.mem_filter.mp member).2
    · rw [Function.update_of_ne isField] at member
      exact follows.unbroken other c member
  | typePlain value =>
    simp only [Composer.step]
    split
    next => exact follows
    next =>
      exact follows.saveFields follows.unbroken (not_mem_normalizeNewlines value)
  | editRich content heard =>
    simp only [Composer.step]
    split
    next =>
      exact ⟨follows.mode, follows.unbroken, follows.fields, follows.lines, follows.body⟩
    next => exact follows
  | timer =>
    simp only [Composer.step]
    split
    next =>
      have saved := follows.saveRich
      exact ⟨saved.mode, saved.unbroken, saved.fields, saved.lines, saved.body⟩
    next => exact follows
  | setFormatted on => exact follows.setFormatted on
  | toggleSignature text html =>
    simp only [Composer.step]
    split
    next => exact follows.placeRich html
    next => exact follows.placePlain text
  | choose choices =>
    exact ⟨follows.mode, follows.unbroken, follows.fields, follows.lines, follows.body⟩
  | repaint => exact follows_renderComposer form.draft

end

section Examples

local instance : Unicode := asciiTables

local instance : Browser where
  parseUrl _ := none
  toUpperCase s := s.map Char.toUpper
  parse _ := []

/-- An editor that holds markup. -/
local instance : Editor where
  Content := Text
  empty := []
  getHTML := id
  load := innerHtml .editor

end Examples

end Eeemail.Desktop.Composer
