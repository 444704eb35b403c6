import Eeemail.Lib.Html

/-! # Form fields

What a form field holds after the composer has written a text into the markup
of the form: `escapeHtml` of `desktop/src/html.ts`, the text that the browser
reads back, and what a line of input or a text area makes of it. -/

set_option autoImplicit false

namespace Eeemail.Desktop.Fields

open Lib.Texts Lib.Html

/-! ## Trimming -/

/-- White space and line terminators, as `String.prototype.trim` knows them. -/
def isJsSpace (c : Char) : Bool :=
  [9, 10, 11, 12, 13, 32, 160, 5760, 8192, 8193, 8194, 8195, 8196, 8197, 8198, 8199, 8200, 8201,
    8202, 8232, 8233, 8239, 8287, 12288, 65279].contains c.toNat

def jsTrim (s : Text) : Text := trimBy isJsSpace s

theorem jsTrim_jsTrim (s : Text) : jsTrim (jsTrim s) = jsTrim s := trimBy_trimBy _ s

theorem jsTrim_space_cons (s : Text) : jsTrim (' ' :: s) = jsTrim s := by
  have blank : isJsSpace ' ' = true := by decide
  unfold jsTrim trimBy trimStartBy
  rw [List.dropWhile_cons_of_pos blank]

variable {s : Text}

theorem mem_of_mem_jsTrim {c : Char} (member : c ∈ jsTrim s) : c ∈ s := by
  have front := trimEndBy_prefix isJsSpace (trimStartBy isJsSpace s)
  exact (List.dropWhile_suffix isJsSpace).subset (front.subset member)

/-! ## Text in the markup of the form -/

def escapeHtml (s : Text) : Text := replaceAll '\x27' "&#39;".toList (escapeMarkup s)

theorem escapeHtml_cons (c : Char) (s : Text) :
    escapeHtml (c :: s) = escapeHtml [c] ++ escapeHtml s := by
  rw [escapeHtml, escapeMarkup_cons, ← escapeMarkup_singleton, replaceAll_append]
  rfl

theorem decode_escapeHtml_append (c : Char) (rest : Text) :
    decode (escapeHtml [c] ++ rest) = c :: decode rest := by
  by_cases isApostrophe : c = '\x27'
  · subst isApostrophe
    rfl
  · have kept : escapeHtml [c] = escaped c := by
      rw [escapeHtml, escapeMarkup_singleton]
      refine replaceAll_of_not_mem ?_
      unfold escaped
      split_ifs
      · decide
      · decide
      · decide
      · decide
      · simpa using Ne.symm isApostrophe
    rw [kept, decode_escaped]

theorem decode_escapeHtml (s : Text) : decode (escapeHtml s) = s := by
  induction s with
  | nil => rfl
  | cons c rest ih => rw [escapeHtml_cons, decode_escapeHtml_append, ih]

/-- A null character is no text in markup. -/
def replaceNull (s : Text) : Text := replaceAll '\x00' ['�'] s

def isNewline (c : Char) : Bool := c == '\n' || c == '\r'

/-- What a one-line field holds that was written with this value: a browser strips
newlines from it. -/
def inputValue (markup : Text) : Text :=
  replaceNull ((decode markup).filter fun c => !isNewline c)

def normalizeNewlines : Text → Text
  | '\r' :: '\n' :: rest => '\n' :: normalizeNewlines rest
  | '\r' :: rest => '\n' :: normalizeNewlines rest
  | c :: rest => c :: normalizeNewlines rest
  | [] => []

/-- A newline right after the start tag of a text area is not part of its text. -/
def dropFirstNewline : Text → Text
  | '\n' :: rest => rest
  | s => s

def textareaValue (markup : Text) : Text :=
  dropFirstNewline (replaceNull (normalizeNewlines (decode markup)))

def isUnheld (c : Char) : Bool := isNewline c || c == '\x00'

theorem inputValue_escapeHtml (held : ∀ c ∈ s, isUnheld c = false) :
    inputValue (escapeHtml s) = s := by
  have split : ∀ c ∈ s, isNewline c = false ∧ c ≠ '\x00' := by
    intro c member
    have := held c member
    simpa [isUnheld] using this
  rw [inputValue, decode_escapeHtml, List.filter_eq_self.mpr, replaceNull, replaceAll_of_not_mem]
  · exact fun member => (split _ member).2 rfl
  · intro c member
    rw [(split c member).1]
    rfl

theorem held_of_mem_inputValue {markup : Text} {c : Char} (member : c ∈ inputValue markup) :
    isUnheld c = false := by
  rcases mem_replaceAll.mp member with ⟨kept, notNull⟩ | ⟨_, replaced⟩
  · have notNewline := (List.mem_filter.mp kept).2
    simp only [Bool.not_eq_true'] at notNewline
    simp [isUnheld, notNewline, notNull]
  · rw [List.mem_singleton.mp replaced]
    decide

theorem not_mem_normalizeNewlines (s : Text) : '\r' ∉ normalizeNewlines s := by
  fun_induction normalizeNewlines s with
  | case1 rest ih | case2 rest _ ih =>
    rw [List.mem_cons, not_or]
    exact ⟨by decide, ih⟩
  | case3 c rest _ notReturn ih =>
    rw [List.mem_cons, not_or]
    exact ⟨fun isReturn => notReturn isReturn.symm, ih⟩
  | case4 => exact List.not_mem_nil

theorem mem_of_mem_dropFirstNewline {c : Char} (member : c ∈ dropFirstNewline s) : c ∈ s := by
  unfold dropFirstNewline at member
  split at member
  next => exact List.mem_cons_of_mem _ member
  next => exact member

theorem not_mem_textareaValue (markup : Text) : '\r' ∉ textareaValue markup := by
  intro member
  rcases mem_replaceAll.mp (mem_of_mem_dropFirstNewline member) with
    ⟨inside, _⟩ | ⟨_, isReplacement⟩
  · exact not_mem_normalizeNewlines _ inside
  · exact absurd isReplacement (by decide)

end Eeemail.Desktop.Fields
