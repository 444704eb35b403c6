import Eeemail.Desktop.RichText

/-! # The plain text of a body

A plain body that `fromText` of `desktop/src/richtext.ts` puts into the editor, one
paragraph a line, and that `compose` reads back: white space around it is
trimmed, and of a run of line breaks two are left. -/

set_option autoImplicit false

namespace Eeemail.Desktop.PlainText

open Lib.Texts Desktop.Fields Desktop.RichText

/-! ## Runs of line breaks -/

theorem collapseNewlines_nil : collapseNewlines [] = [] := rfl

theorem collapseNewlines_cons (c : Char) (s : Text) :
    collapseNewlines (c :: s) =
      if c = '\n' ∧ startsWith ['\n', '\n'] (collapseNewlines s) then collapseNewlines s
      else c :: collapseNewlines s := rfl

theorem collapseNewlines_sublist (s : Text) : (collapseNewlines s).Sublist s := by
  induction s with
  | nil => exact List.Sublist.slnil
  | cons c rest ih =>
    rw [collapseNewlines_cons]
    split_ifs
    · exact ih.cons c
    · exact ih.cons_cons c

theorem collapseNewlines_eq_self {s : Text} :
    collapseNewlines s = s ↔ ¬['\n', '\n', '\n'] <:+: s := by
  induction s with
  | nil => simp [collapseNewlines]
  | cons c rest ih =>
    have starts : ['\n', '\n', '\n'] <+: c :: rest ↔
        c = '\n' ∧ startsWith ['\n', '\n'] rest = true := by
      rw [List.cons_prefix_cons, startsWith, List.isPrefixOf_iff_prefix]
      exact and_congr_left fun _ => eq_comm
    rw [collapseNewlines_cons, List.infix_cons_iff, not_or, starts]
    constructor
    · intro same
      split_ifs at same with drops
      · have length := (collapseNewlines_sublist rest).length_le
        rw [same, List.length_cons] at length
        omega
      · have rest := (List.cons.inj same).2
        rw [rest] at drops
        exact ⟨drops, ih.mp rest⟩
    · rintro ⟨kept, later⟩
      rw [ih.mpr later, if_neg kept]

theorem head?_collapseNewlines {s : Text} (starts : ∀ c, s.head? = some c → c ≠ '\n') :
    (collapseNewlines s).head? = s.head? := by
  cases s with
  | nil => rfl
  | cons c rest =>
    rw [collapseNewlines_cons, if_neg fun both => starts c rfl both.1]
    rfl

theorem collapseNewlines_append {s t : Text} (starts : ∀ c, t.head? = some c → c ≠ '\n') :
    collapseNewlines (s ++ t) = collapseNewlines s ++ collapseNewlines t := by
  induction s with
  | nil => rfl
  | cons c rest ih =>
    have same : startsWith ['\n', '\n'] (collapseNewlines rest ++ collapseNewlines t) =
        startsWith ['\n', '\n'] (collapseNewlines rest) := by
      refine startsWith_append fun d head => ?_
      rw [head?_collapseNewlines starts] at head
      simpa using starts d head
    rw [List.cons_append, collapseNewlines_cons, ih, same, collapseNewlines_cons]
    split_ifs
    · rfl
    · rfl

theorem collapseNewlines_append_solid {s t : Text} {c : Char} (solid : c ≠ '\n') :
    collapseNewlines (s ++ [c] ++ t) = collapseNewlines s ++ [c] ++ collapseNewlines t := by
  have starts : ∀ d, (c :: t).head? = some d → d ≠ '\n' :=
    fun d head => Option.some.inj head ▸ solid
  rw [List.append_assoc, List.append_assoc, List.singleton_append, collapseNewlines_append starts,
    collapseNewlines_cons, if_neg fun both => solid both.1, List.singleton_append]

theorem ne_newline_of_solid {c : Char} (solid : isJsSpace c = false) : c ≠ '\n' := by
  rintro rfl
  exact absurd solid (by decide)

theorem jsTrim_collapseNewlines (s : Text) :
    jsTrim (collapseNewlines s) = collapseNewlines (jsTrim s) := by
  obtain ⟨front, back, isWhole, blankFront, blankBack⟩ := exists_trimBy isJsSpace s
  have collapsed {t : Text} (blank : ∀ c ∈ t, isJsSpace c = true) :
      ∀ c ∈ collapseNewlines t, isJsSpace c = true :=
    fun c member => blank c ((collapseNewlines_sublist t).subset member)
  have head {c : Char} := head?_trimBy isJsSpace (s := s) (c := c)
  have last {c : Char} := getLast?_trimBy isJsSpace (s := s) (c := c)
  rw [← jsTrim] at isWhole head last
  conv_lhs => rw [isWhole]
  generalize jsTrim s = core at *
  rcases List.eq_nil_or_concat core with rfl | ⟨early, c, rfl⟩
  · have blank : ∀ c ∈ front ++ [] ++ back, isJsSpace c = true := by
      intro c member
      rw [List.append_nil] at member
      exact (List.mem_append.mp member).elim (blankFront c) (blankBack c)
    have nothing : ∀ c ∈ ([] : Text), isJsSpace c = true := fun _ member => nomatch member
    have trimmed := trimBy_append_of_blank isJsSpace (collapsed blank) nothing []
    rwa [List.append_nil, List.append_nil] at trimmed
  · rw [List.concat_eq_append] at *
    have solid : isJsSpace c = false := last (by simp)
    have starts : ∀ d, (early ++ [c]).head? = some d → d ≠ '\n' :=
      fun d isHead => ne_newline_of_solid (head isHead)
    have kept : collapseNewlines (early ++ [c]) = collapseNewlines early ++ [c] := by
      have alone := collapseNewlines_append_solid (s := early) (t := []) (ne_newline_of_solid solid)
      rwa [List.append_nil, collapseNewlines_nil, List.append_nil] at alone
    have startsLater : ∀ d, (early ++ [c] ++ back).head? = some d → d ≠ '\n' := by
      rw [List.head?_append_of_ne_nil _ (by simp)]
      exact starts
    rw [List.append_assoc, collapseNewlines_append startsLater,
      collapseNewlines_append_solid (ne_newline_of_solid solid), ← kept,
      ← List.append_assoc, jsTrim,
      trimBy_append_of_blank isJsSpace (collapsed blankFront) (collapsed blankBack)]
    refine trimBy_eq_self isJsSpace (fun d isHead => head ?_) fun d isLast => ?_
    · rwa [head?_collapseNewlines starts] at isHead
    · rw [kept, List.getLast?_concat] at isLast
      exact Option.some.inj isLast ▸ solid

/-! ## Paragraphs -/

section

variable [Browser]

def paragraph (line : Text) : Node :=
  .element "P".toList none (some fun _ => [])
    [if line.isEmpty then .element "BR".toList none (some fun _ => []) [] else .text line]

/-- The browser reads the paragraphs as they are written. -/
structure ReadsParagraphs (text : Text) : Prop where
  parsed : Browser.parse (fromText text) = (split '\n' text).map paragraph
  paragraphName : Browser.toUpperCase "P".toList = "P".toList
  breakName : Browser.toUpperCase "BR".toList = "BR".toList

theorem toText_paragraph {text : Text} (reads : ReadsParagraphs text) (last : Bool) (line : Text) :
    toText none last (paragraph line) = line ++ ['\n'] := by
  have paragraphTag : tagOf "P".toList = "P".toList := by
    rw [tagOf, reads.paragraphName]
    decide
  have breakTag : tagOf "BR".toList = "BR".toList := by
    rw [tagOf, reads.breakName]
    decide
  have inside : innerText (some "P".toList)
      [if line.isEmpty then .element "BR".toList none (some fun _ => []) [] else .text line] =
      line := by
    cases line with
    | nil =>
      simp only [List.isEmpty_nil, if_true, innerText, toText, breakTag, List.append_nil]
      decide
    | cons c rest => simp [innerText, toText]
  rw [paragraph, toText, paragraphTag, inside]
  rfl

theorem innerText_paragraphs {text : Text} (reads : ReadsParagraphs text) :
    innerText none ((split '\n' text).map paragraph) = text ++ ['\n'] := by
  have each : ∀ lines : List Text, lines ≠ [] →
      innerText none (lines.map paragraph) = join ['\n'] lines ++ ['\n'] := by
    intro lines some
    induction lines with
    | nil => exact absurd rfl some
    | cons line others ih =>
      rw [List.map_cons, innerText, toText_paragraph reads]
      by_cases more : others = []
      · subst more
        simp [innerText, join]
      · rw [ih more, join_cons more]
        simp only [List.append_assoc]
  rw [each _ (split_ne_nil '\n' text), join_split]

theorem switching_keeps_text_iff [Unicode] {text : Text} (reads : ReadsParagraphs text) :
    jsTrim (compose (fromText text)).text = jsTrim text ↔ ¬['\n', '\n', '\n'] <:+: jsTrim text := by
  have composed : (compose (fromText text)).text = collapseNewlines (jsTrim text) := by
    have nothing : ∀ c ∈ ([] : Text), isJsSpace c = true := fun _ member => nomatch member
    have newline : ∀ c ∈ ['\n'], isJsSpace c = true :=
      fun c member => List.mem_singleton.mp member ▸ by decide
    have trimmed : jsTrim (text ++ ['\n']) = jsTrim text :=
      trimBy_append_of_blank isJsSpace nothing newline text
    simp only [compose, reads.parsed, innerText_paragraphs reads, jsTrim_collapseNewlines, trimmed]
  rw [composed, ← collapseNewlines_eq_self, jsTrim_collapseNewlines, jsTrim_jsTrim]

end

section

local instance : Unicode := asciiTables

@[reducible]
def reading (text : Text) : Browser where
  parseUrl _ := none
  toUpperCase s := s.map Char.toUpper
  parse _ := (split '\n' text).map paragraph

theorem readsParagraphs_reading (text : Text) :
    letI := reading text
    ReadsParagraphs text :=
  letI := reading text
  have upper : "P".toList.map Char.toUpper = "P".toList ∧
      "BR".toList.map Char.toUpper = "BR".toList := by decide
  ⟨rfl, upper.1, upper.2⟩

theorem single_blank_line_kept :
    letI := reading "a\n\nb".toList
    jsTrim (compose (fromText "a\n\nb".toList)).text = jsTrim "a\n\nb".toList :=
  letI := reading "a\n\nb".toList
  (switching_keeps_text_iff (readsParagraphs_reading "a\n\nb".toList)).mpr (by decide)

theorem blank_lines_lost :
    letI := reading "a\n\n\nb".toList
    ReadsParagraphs "a\n\n\nb".toList ∧
      (compose (fromText "a\n\n\nb".toList)).text = "a\n\nb".toList ∧
      jsTrim (compose (fromText "a\n\n\nb".toList)).text ≠ jsTrim "a\n\n\nb".toList := by
  refine ⟨readsParagraphs_reading _, ?_⟩
  decide

end

end Eeemail.Desktop.PlainText
