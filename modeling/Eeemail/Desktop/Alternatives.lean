import Eeemail.Desktop.PlainText

/-! # The two parts of a message

`compose` of `desktop/src/richtext.ts` reads the editor's nodes twice, once as
markup and once as text with markers for lists and quotes.  Both parts say the
same: without its markers, the text has the characters that a browser finds
between the tags of the markup. -/

set_option autoImplicit false

namespace Eeemail.Desktop.Alternatives

open Lib.Texts Lib.Html Lib.Markup Desktop.Fields Desktop.RichText Desktop.PlainText

variable {name : Text} {c : Char} {attributes : List (Text × Text)}

/-! ## The text and its markers -/

/-- A text, and for each character whether it belongs to a marker that the walk put in. -/
abbrev Marked := List (Char × Bool)

def plainly (s : Text) : Marked := s.map (·, false)

def asMarker (s : Text) : Marked := s.map (·, true)

def asText (marked : Marked) : Text := marked.map Prod.fst

def ink (s : Text) : Text := s.filter fun c => !isJsSpace c

def unmarked (marked : Marked) : Text := asText (marked.filter fun glyph => !glyph.2)

def trimMarkedEnd (blank : Char → Bool) (marked : Marked) : Marked :=
  (marked.reverse.dropWhile fun glyph => blank glyph.1).reverse

def trimMarked (blank : Char → Bool) (marked : Marked) : Marked :=
  trimMarkedEnd blank (marked.dropWhile fun glyph => blank glyph.1)

def splitMarked : Marked → List Marked
  | [] => [[]]
  | glyph :: rest =>
    if glyph.1 = '\n' then [] :: splitMarked rest
    else
      match splitMarked rest with
      | [] => [[glyph]]
      | line :: lines => (glyph :: line) :: lines

def joinMarked : List Marked → Marked
  | [] => []
  | [line] => line
  | line :: lines => line ++ plainly ['\n'] ++ joinMarked lines

def quoteMarked (line : Marked) : Marked :=
  if line.isEmpty then asMarker ['>'] else asMarker ['>', ' '] ++ line

def collapseMarked (marked : Marked) : Marked :=
  marked.foldr (fun glyph rest =>
    if glyph.1 = '\n' ∧ startsWith ['\n', '\n'] (asText rest) then rest else glyph :: rest) []

/-- `elementText`, with the markers told apart. -/
def elementMarked (parent : Option Text) (last : Bool) (tag : Text) (inner : Marked) : Marked :=
  if dropped.contains tag then []
  else if tag = "BR".toList then
    if last && parent.any blocks.contains then [] else plainly ['\n']
  else if tag = "LI".toList then
    asMarker "- ".toList ++ trimMarkedEnd (· == '\n') inner ++ plainly ['\n']
  else if tag = "BLOCKQUOTE".toList then
    joinMarked ((splitMarked (trimMarkedEnd (· == '\n') inner)).map quoteMarked) ++ plainly ['\n']
  else if blocks.contains tag then inner ++ plainly ['\n']
  else inner

section

variable [Browser]

mutual

def markedText (parent : Option Text) (last : Bool) : Node → Marked
  | .text nodeValue => plainly nodeValue
  | .other => []
  | .element tagName _ _ childNodes =>
    elementMarked parent last (tagOf tagName) (innerMarked (some (tagOf tagName)) childNodes)

def innerMarked (parent : Option Text) : List Node → Marked
  | [] => []
  | child :: others => markedText parent others.isEmpty child ++ innerMarked parent others

end

def composeMarked (editorHtml : Text) : Marked :=
  trimMarked isJsSpace (collapseMarked (innerMarked none (Browser.parse editorHtml)))

end

/-! ## The same text -/

theorem asText_append (first second : Marked) :
    asText (first ++ second) = asText first ++ asText second :=
  List.map_append ..

theorem asText_cons (glyph : Char × Bool) (rest : Marked) :
    asText (glyph :: rest) = glyph.1 :: asText rest := rfl

theorem asText_plainly (s : Text) : asText (plainly s) = s := by
  rw [asText, plainly, List.map_map]
  exact List.map_id s

theorem asText_asMarker (s : Text) : asText (asMarker s) = s := by
  rw [asText, asMarker, List.map_map]
  exact List.map_id s

theorem asText_trimMarkedEnd (blank : Char → Bool) (marked : Marked) :
    asText (trimMarkedEnd blank marked) = trimEndBy blank (asText marked) := by
  rw [asText, asText, trimEndBy, trimMarkedEnd, ← List.map_reverse, List.dropWhile_map,
    ← List.map_reverse]
  rfl

theorem asText_trimMarked (blank : Char → Bool) (marked : Marked) :
    asText (trimMarked blank marked) = trimBy blank (asText marked) := by
  rw [trimMarked, asText_trimMarkedEnd, trimBy, trimStartBy, asText, asText, List.dropWhile_map]
  rfl

theorem map_asText_splitMarked (marked : Marked) :
    (splitMarked marked).map asText = split '\n' (asText marked) := by
  induction marked with
  | nil => rfl
  | cons glyph rest ih =>
    by_cases breaks : glyph.1 = '\n'
    · rw [splitMarked, if_pos breaks, List.map_cons, ih, asText_cons, split, if_pos breaks]
      rfl
    · rw [asText_cons, split, if_neg breaks, ← ih, splitMarked, if_neg breaks]
      cases splitMarked rest with
      | nil => rfl
      | cons line lines => rfl

theorem asText_joinMarked (lines : List Marked) :
    asText (joinMarked lines) = join ['\n'] (lines.map asText) := by
  fun_induction joinMarked lines with
  | case1 => rfl
  | case2 => rfl
  | case3 line lines more ih =>
    have some : lines.map asText ≠ [] := by simpa using more
    rw [List.map_cons, join_cons some, asText_append, asText_append, ih, asText_plainly]

theorem asText_quoteMarked (line : Marked) :
    asText (quoteMarked line) = quoteLine (asText line) := by
  cases line with
  | nil => rfl
  | cons glyph rest => rfl

theorem asText_collapseMarked (marked : Marked) :
    asText (collapseMarked marked) = collapseNewlines (asText marked) := by
  induction marked with
  | nil => rfl
  | cons glyph rest ih =>
    have unfolded : collapseMarked (glyph :: rest) =
        if glyph.1 = '\n' ∧ startsWith ['\n', '\n'] (asText (collapseMarked rest)) then
          collapseMarked rest
        else glyph :: collapseMarked rest := rfl
    rw [unfolded, asText_cons, collapseNewlines_cons, ← ih]
    split_ifs
    · rfl
    · rfl

theorem asText_elementMarked (parent : Option Text) (last : Bool) (tag : Text) (inner : Marked) :
    asText (elementMarked parent last tag inner) = elementText parent last tag (asText inner) := by
  have quoted : ((splitMarked (trimMarkedEnd (· == '\n') inner)).map quoteMarked).map asText =
      (split '\n' (dropNewlines (asText inner))).map quoteLine := by
    rw [dropNewlines, ← asText_trimMarkedEnd, ← map_asText_splitMarked, List.map_map, List.map_map]
    exact List.map_congr_left fun line _ => asText_quoteMarked line
  unfold elementMarked elementText
  split_ifs
  · rfl
  · rfl
  · rfl
  · rw [asText_append, asText_append, asText_asMarker, asText_plainly, asText_trimMarkedEnd,
      dropNewlines]
  · rw [asText_append, asText_plainly, asText_joinMarked, quoted]
  · rw [asText_append, asText_plainly]
  · rfl

section

variable [Browser]

mutual

theorem asText_markedText (parent : Option Text) (last : Bool) :
    ∀ node, asText (markedText parent last node) = toText parent last node
  | .text nodeValue => by rw [markedText, toText, asText_plainly]
  | .other => by
    rw [markedText, toText]
    rfl
  | .element tagName _ _ childNodes => by
    rw [markedText, toText, asText_elementMarked, asText_innerMarked]

theorem asText_innerMarked (parent : Option Text) :
    ∀ nodes, asText (innerMarked parent nodes) = innerText parent nodes
  | [] => by
    rw [innerMarked, innerText]
    rfl
  | child :: others => by
    rw [innerMarked, innerText, asText_append, asText_markedText, asText_innerMarked]

end

theorem asText_composeMarked [Unicode] (editorHtml : Text) :
    asText (composeMarked editorHtml) = (compose editorHtml).text := by
  rw [composeMarked, asText_trimMarked, asText_collapseMarked, asText_innerMarked, compose, jsTrim]

end

/-! ## The same words -/

def inkOf (marked : Marked) : Text := ink (unmarked marked)

theorem ink_append (s t : Text) : ink (s ++ t) = ink s ++ ink t := List.filter_append ..

theorem ink_of_blank {s : Text} (blank : ∀ c ∈ s, isJsSpace c = true) : ink s = [] := by
  refine List.filter_eq_nil_iff.mpr fun c member => ?_
  simp [blank c member]

theorem inkOf_append (first second : Marked) :
    inkOf (first ++ second) = inkOf first ++ inkOf second := by
  rw [inkOf, unmarked, List.filter_append, asText_append, ink_append, inkOf, unmarked, inkOf,
    unmarked]

theorem inkOf_plainly (s : Text) : inkOf (plainly s) = ink s := by
  have all : (plainly s).filter (fun glyph => !glyph.2) = plainly s := by
    refine List.filter_eq_self.mpr fun glyph member => ?_
    obtain ⟨c, _, rfl⟩ := List.mem_map.mp member
    rfl
  rw [inkOf, unmarked, all, asText_plainly]

theorem inkOf_asMarker (s : Text) : inkOf (asMarker s) = [] := by
  have none : (asMarker s).filter (fun glyph => !glyph.2) = [] := by
    refine List.filter_eq_nil_iff.mpr fun glyph member => ?_
    obtain ⟨c, _, rfl⟩ := List.mem_map.mp member
    exact Bool.false_ne_true
  rw [inkOf, unmarked, none]
  rfl

theorem inkOf_of_blank {marked : Marked} (blank : ∀ glyph ∈ marked, isJsSpace glyph.1 = true) :
    inkOf marked = [] := by
  refine ink_of_blank fun c member => ?_
  obtain ⟨glyph, isGlyph, rfl⟩ := List.mem_map.mp member
  exact blank glyph (List.mem_filter.mp isGlyph).1

theorem inkOf_newline : inkOf (plainly ['\n']) = [] := by
  rw [inkOf_plainly]
  decide

section

variable {blank : Char → Bool} (within : ∀ c, blank c = true → isJsSpace c = true)

include within

theorem inkOf_dropWhile (marked : Marked) :
    inkOf (marked.dropWhile fun glyph => blank glyph.1) = inkOf marked := by
  have taken : ∀ glyph ∈ marked.takeWhile fun glyph => blank glyph.1, isJsSpace glyph.1 = true := by
    intro glyph member
    have passes := List.mem_takeWhile_imp member
    exact within glyph.1 passes
  conv_rhs => rw [← List.takeWhile_append_dropWhile (p := fun glyph => blank glyph.1) (l := marked),
    inkOf_append, inkOf_of_blank taken, List.nil_append]

theorem inkOf_trimMarkedEnd (marked : Marked) :
    inkOf (trimMarkedEnd blank marked) = inkOf marked := by
  have backwards (some : Marked) : inkOf some.reverse = (inkOf some).reverse := by
    rw [inkOf, unmarked, List.filter_reverse, asText, List.map_reverse, ink, List.filter_reverse]
    rfl
  rw [trimMarkedEnd, backwards, inkOf_dropWhile within, backwards, List.reverse_reverse]

theorem inkOf_trimMarked (marked : Marked) : inkOf (trimMarked blank marked) = inkOf marked := by
  rw [trimMarked, inkOf_trimMarkedEnd within, inkOf_dropWhile within]

end

theorem inkOf_cons_newline {glyph : Char × Bool} (breaks : glyph.1 = '\n') (rest : Marked) :
    inkOf (glyph :: rest) = inkOf rest := by
  have blank : inkOf [glyph] = [] := by
    refine inkOf_of_blank fun other member => ?_
    rw [List.mem_singleton.mp member, breaks]
    decide
  rw [← List.singleton_append, inkOf_append, blank, List.nil_append]

theorem inkOf_collapseMarked (marked : Marked) : inkOf (collapseMarked marked) = inkOf marked := by
  induction marked with
  | nil => rfl
  | cons glyph rest ih =>
    have unfolded : collapseMarked (glyph :: rest) =
        if glyph.1 = '\n' ∧ startsWith ['\n', '\n'] (asText (collapseMarked rest)) then
          collapseMarked rest
        else glyph :: collapseMarked rest := rfl
    rw [unfolded]
    split_ifs with drops
    · rw [ih, inkOf_cons_newline drops.1]
    · rw [← List.singleton_append, inkOf_append, ih, ← inkOf_append, List.singleton_append]

theorem inkOf_splitMarked (marked : Marked) :
    ((splitMarked marked).map inkOf).flatten = inkOf marked := by
  induction marked with
  | nil => rfl
  | cons glyph rest ih =>
    by_cases breaks : glyph.1 = '\n'
    · rw [splitMarked, if_pos breaks, List.map_cons, List.flatten_cons, ih,
        inkOf_cons_newline breaks]
      rfl
    · have apart (line : Marked) : inkOf (glyph :: line) = inkOf [glyph] ++ inkOf line := by
        rw [← List.singleton_append, inkOf_append]
      rw [splitMarked, if_neg breaks, apart, ← ih]
      cases splitMarked rest with
      | nil => simp
      | cons line lines =>
        simp only [List.map_cons, List.flatten_cons]
        rw [apart, List.append_assoc]

theorem inkOf_joinMarked (lines : List Marked) :
    inkOf (joinMarked lines) = (lines.map inkOf).flatten := by
  fun_induction joinMarked lines with
  | case1 => rfl
  | case2 => simp
  | case3 line lines _ ih =>
    rw [List.map_cons, List.flatten_cons, inkOf_append, inkOf_append, ih, inkOf_newline,
      List.append_nil]

theorem inkOf_quoteMarked (line : Marked) : inkOf (quoteMarked line) = inkOf line := by
  unfold quoteMarked
  split_ifs with none
  · rw [inkOf_asMarker, List.isEmpty_iff.mp none]
    rfl
  · rw [inkOf_append, inkOf_asMarker, List.nil_append]

def elementContent (tag inner : Text) : Text :=
  if dropped.contains tag then [] else if tag = "BR".toList then [] else inner

theorem inkOf_elementMarked (parent : Option Text) (last : Bool) (tag : Text) (inner : Marked) :
    inkOf (elementMarked parent last tag inner) = elementContent tag (inkOf inner) := by
  have newlines : ∀ c : Char, (c == '\n') = true → isJsSpace c = true := by
    intro c isNewline
    rw [beq_iff_eq.mp isNewline]
    decide
  unfold elementMarked elementContent
  split_ifs
  · rfl
  · rfl
  · rw [inkOf_newline]
  · rw [inkOf_append, inkOf_append, inkOf_asMarker, inkOf_trimMarkedEnd newlines, inkOf_newline,
      List.nil_append, List.append_nil]
  · have lines : ((splitMarked (trimMarkedEnd (· == '\n') inner)).map quoteMarked).map inkOf =
        (splitMarked (trimMarkedEnd (· == '\n') inner)).map inkOf := by
      rw [List.map_map]
      exact List.map_congr_left fun line _ => inkOf_quoteMarked line
    rw [inkOf_append, inkOf_joinMarked, lines, inkOf_splitMarked, inkOf_trimMarkedEnd newlines,
      inkOf_newline, List.append_nil]
  · rw [inkOf_append, inkOf_newline, List.append_nil]
  · rfl

theorem ink_elementContent (tag inner : Text) :
    ink (elementContent tag inner) = elementContent tag (ink inner) := by
  unfold elementContent
  split_ifs
  · rfl
  · rfl
  · rfl

section

variable [Browser]

mutual

/-- The text of a node that is neither dropped nor in what is dropped. -/
def content : Node → Text
  | .text nodeValue => nodeValue
  | .other => []
  | .element tagName _ _ childNodes => elementContent (tagOf tagName) (innerContent childNodes)

def innerContent : List Node → Text
  | [] => []
  | child :: others => content child ++ innerContent others

end

mutual

theorem inkOf_markedText (parent : Option Text) (last : Bool) :
    ∀ node, inkOf (markedText parent last node) = ink (content node)
  | .text nodeValue => by rw [markedText, content, inkOf_plainly]
  | .other => by
    rw [markedText, content]
    rfl
  | .element tagName _ _ childNodes => by
    rw [markedText, content, inkOf_elementMarked, ink_elementContent, inkOf_innerMarked]

theorem inkOf_innerMarked (parent : Option Text) :
    ∀ nodes, inkOf (innerMarked parent nodes) = ink (innerContent nodes)
  | [] => by
    rw [innerMarked, innerContent]
    rfl
  | child :: others => by
    rw [innerMarked, innerContent, inkOf_append, ink_append, inkOf_markedText, inkOf_innerMarked]

end

theorem inkOf_composeMarked (editorHtml : Text) :
    inkOf (composeMarked editorHtml) = ink (innerContent (Browser.parse editorHtml)) := by
  rw [composeMarked, inkOf_trimMarked fun _ => id, inkOf_collapseMarked, inkOf_innerMarked]

end

/-! ## Formatting -/

def isFormatting : Token → Bool
  | .char _ => false
  | .start name attributes =>
    !(attributes.isEmpty && (name == "p".toList || name == "br".toList))
  | .stop name => !(name == "p".toList || name == "br".toList)

theorem hasFormatting_append {s : Text} (plain : '<' ∉ s) (rest : Text) :
    hasFormatting (s ++ rest) = hasFormatting rest := by
  induction s with
  | nil => rfl
  | cons c others ih =>
    have notOpen : (c == '<') = false := by simpa using Ne.symm (List.ne_of_not_mem_cons plain)
    rw [List.cons_append, hasFormatting, notOpen, Bool.false_and, Bool.false_or,
      ih (List.not_mem_of_not_mem_cons plain)]

theorem startsWith_cons (a x : Char) (start s : Text) :
    startsWith (a :: start) (x :: s) = (a == x && startsWith start s) :=
  List.isPrefixOf_cons_cons

theorem startsWith_name {expected : Text} (rest : Text) (unended : '>' ∉ name)
    (differs : c ∉ expected) :
    startsWith (expected ++ ['>']) (name ++ c :: rest) = (name == expected && c == '>') := by
  induction expected generalizing name with
  | nil =>
    cases name with
    | nil =>
      rw [List.nil_append, List.nil_append, startsWith_cons, Bool.beq_comm]
      exact Bool.and_comm ..
    | cons x others =>
      have notEnd := List.ne_of_not_mem_cons unended
      rw [List.nil_append, List.cons_append, startsWith_cons, beq_false_of_ne notEnd]
      rfl
  | cons a expected ih =>
    cases name with
    | nil =>
      have notFirst := List.ne_of_not_mem_cons differs
      rw [List.nil_append, List.cons_append, startsWith_cons, beq_false_of_ne (Ne.symm notFirst)]
      rfl
    | cons x others =>
      rw [List.cons_append, List.cons_append, startsWith_cons,
        ih (List.not_mem_of_not_mem_cons unended) (List.not_mem_of_not_mem_cons differs),
        List.cons_beq_cons, Bool.and_assoc, Bool.beq_comm]

theorem startsWith_lower (rest : Text) (valid : isName name = true) (notName : c = '>' ∨ c = ' ') :
    (startsWith "p>".toList (asciiLower (name ++ c :: rest)) ||
        startsWith "br>".toList (asciiLower (name ++ c :: rest))) =
      ((name == "p".toList || name == "br".toList) && c == '>') := by
  obtain ⟨first, others, rfl, _, isFirst, valid⟩ := exists_of_isName valid
  have each : ∀ d ∈ first :: others, isNameChar d = true := by
    intro d member
    rcases List.mem_cons.mp member with rfl | later
    · exact isFirst
    · exact valid d later
  generalize first :: others = name at *
  have lower : asciiLower (name ++ c :: rest) = name ++ c :: asciiLower rest := by
    have same : asciiLower name = name := by
      refine (List.map_congr_left fun d member => ?_).trans (List.map_id name)
      exact (plainNameChar (each d member)).lower
    have ended : c.toLower = c := by
      rcases notName with rfl | rfl
      · decide
      · decide
    rw [asciiLower, List.map_append, List.map_cons, ended, ← asciiLower, ← asciiLower, same]
  have unended : '>' ∉ name := fun member => (plainNameChar (each _ member)).notEnd rfl
  have differs : c ∉ "p".toList ∧ c ∉ "br".toList := by
    rcases notName with rfl | rfl
    · decide
    · decide
  have paragraphs := startsWith_name (asciiLower rest) unended differs.1
  have breaks := startsWith_name (asciiLower rest) unended differs.2
  rw [lower]
  exact (congrArg₂ or paragraphs breaks).trans (Bool.and_or_distrib_right ..).symm

theorem hasFormatting_tag {inside : Text} (plain : '<' ∉ inside) (rest : Text) :
    hasFormatting ('<' :: inside ++ '>' :: rest) =
      (!isPlainTag (inside ++ '>' :: rest) || hasFormatting rest) := by
  have closed : hasFormatting ('>' :: rest) = hasFormatting rest :=
    hasFormatting_append (s := ['>']) (by decide) rest
  rw [List.cons_append, hasFormatting, hasFormatting_append plain, closed]
  rfl

theorem not_mem_of_isName (valid : isName name = true) (other : isNameChar c = false) :
    c ∉ name := by
  obtain ⟨first, others, rfl, _, isFirst, rest⟩ := exists_of_isName valid
  intro member
  rcases List.mem_cons.mp member with rfl | later
  · exact absurd isFirst (by simp [other])
  · exact absurd (rest c later) (by simp [other])

theorem not_mem_attributeList (valid : ∀ pair ∈ attributes, isName pair.1 = true) :
    '<' ∉ attributeList attributes := by
  induction attributes with
  | nil => exact List.not_mem_nil
  | cons pair others ih =>
    obtain ⟨name, value⟩ := pair
    have named := not_mem_of_isName (valid _ List.mem_cons_self) (c := '<') (by decide)
    have valued := not_mem_escapeMarkup (Or.inl rfl) value
    have later := ih fun other member => valid other (List.mem_cons_of_mem _ member)
    rw [attributeList_cons]
    simp [named, valued, later]

theorem hasFormatting_startTag (valid : isName name = true)
    (validAttributes : ∀ pair ∈ attributes, isName pair.1 = true) (rest : Text) :
    hasFormatting (startTag name attributes ++ rest) =
      (isFormatting (.start name attributes) || hasFormatting rest) := by
  have unslashed (later : Text) : startsWith ['/'] (name ++ later) = false := by
    obtain ⟨first, others, rfl, _, isFirst, _⟩ := exists_of_isName valid
    have notSlash := (plainNameChar isFirst).notSlash
    rw [List.cons_append, startsWith_cons, beq_false_of_ne (Ne.symm notSlash)]
    rfl
  have unopened : '<' ∉ name ++ attributeList attributes := by
    rw [List.mem_append, not_or]
    exact ⟨not_mem_of_isName valid (by decide), not_mem_attributeList validAttributes⟩
  have opened : startTag name attributes ++ rest =
      '<' :: (name ++ attributeList attributes) ++ '>' :: rest := by
    rw [startTag, List.append_assoc]
    rfl
  have plain : isPlainTag (name ++ attributeList attributes ++ '>' :: rest) =
      (attributes.isEmpty && (name == "p".toList || name == "br".toList)) := by
    rw [List.append_assoc, isPlainTag, unslashed, if_neg Bool.false_ne_true]
    cases attributes with
    | nil =>
      refine (startsWith_lower rest valid (Or.inl rfl)).trans ?_
      rw [Bool.and_comm]
      rfl
    | cons pair others =>
      rw [attributeList_cons]
      refine (startsWith_lower _ valid (Or.inr rfl)).trans ?_
      rw [Bool.and_comm]
      rfl
  rw [opened, hasFormatting_tag unopened, plain]
  rfl

theorem hasFormatting_endTag (valid : isName name = true) (rest : Text) :
    hasFormatting (endTag name ++ rest) = (isFormatting (.stop name) || hasFormatting rest) := by
  have unopened : '<' ∉ '/' :: name := by
    rw [List.mem_cons, not_or]
    exact ⟨by decide, not_mem_of_isName valid (by decide)⟩
  have opened : endTag name ++ rest = '<' :: ('/' :: name) ++ '>' :: rest := by
    simp [endTag]
  have plain : isPlainTag ('/' :: name ++ '>' :: rest) =
      (name == "p".toList || name == "br".toList) := by
    refine (startsWith_lower rest valid (Or.inl rfl)).trans ?_
    rw [Bool.and_comm]
    rfl
  rw [opened, hasFormatting_tag unopened, plain]
  rfl

/-! ## The markup -/

/-- Markup whose text, decoded, is the content, and whose formatting the test finds
wherever the markup stands. -/
def Written (html content : Text) : Prop :=
  ∃ tokens, readAll .data html = (tokens, .data) ∧ characters tokens = escape content ∧
    ∀ rest, hasFormatting (html ++ rest) = (tokens.any isFormatting || hasFormatting rest)

theorem written_nil : Written [] [] := ⟨[], rfl, rfl, fun _ => rfl⟩

theorem any_isFormatting_char (s : Text) : (s.map Token.char).any isFormatting = false := by
  rw [List.any_map, List.any_eq_false]
  exact fun _ _ => Bool.false_ne_true

theorem written_escape (content : Text) : Written (escape content) content := by
  refine ⟨_, readAll_escapeMarkup content, characters_map_char _, fun rest => ?_⟩
  rw [any_isFormatting_char, Bool.false_or]
  exact hasFormatting_append (not_mem_escapeMarkup (Or.inl rfl) content) rest

theorem Written.append {first second firstContent secondContent : Text}
    (isFirst : Written first firstContent) (isSecond : Written second secondContent) :
    Written (first ++ second) (firstContent ++ secondContent) := by
  obtain ⟨early, readFirst, textFirst, formattingFirst⟩ := isFirst
  obtain ⟨late, readSecond, textSecond, formattingSecond⟩ := isSecond
  refine ⟨early ++ late, readAll_append readFirst readSecond, ?_, fun rest => ?_⟩
  · rw [characters_append, textFirst, textSecond]
    exact (escapeMarkup_append ..).symm
  · rw [List.append_assoc, formattingFirst, formattingSecond, List.any_append, Bool.or_assoc]

theorem written_startTag (valid : isName name = true)
    (validAttributes : ∀ pair ∈ attributes, isName pair.1 = true) :
    Written (startTag name attributes) [] := by
  refine ⟨_, readAll_startTag valid validAttributes, rfl, fun rest => ?_⟩
  rw [hasFormatting_startTag valid validAttributes, List.any_cons, List.any_nil, Bool.or_false]

theorem written_endTag (valid : isName name = true) : Written (endTag name) [] := by
  refine ⟨_, readAll_endTag valid, rfl, fun rest => ?_⟩
  rw [hasFormatting_endTag valid, List.any_cons, List.any_nil, Bool.or_false]

section

variable [AsciiUnicode] [Browser] {mode : Mode}

theorem Written.enclosed {inner outer content : Text} (isInner : Written inner content)
    (encloses : Encloses (Permitted mode) inner outer) : Written outer content := by
  induction encloses with
  | same => exact isInner
  | element isPermitted _ ih =>
    have valid := (lowercase_allowed isPermitted.isAllowed).2
    have whole := ((written_startTag valid isPermitted.names).append ih).append
      (written_endTag valid)
    rwa [List.nil_append, List.append_nil] at whole

theorem written_elementHtml (tag : Text) (href : Option Text) (style : Option (Text → Text))
    {inner content : Text} (isInner : Written inner content) :
    Written (elementHtml mode tag href style inner) (elementContent tag content) := by
  cases isDropped : dropped.contains tag with
  | true =>
    rw [elementHtml, elementContent, isDropped, if_pos rfl, if_pos rfl]
    exact written_nil
  | false =>
    by_cases isBreak : tag = "BR".toList
    · have lineBreak : Written (startTag "br".toList []) [] :=
        written_startTag (by decide) (by simp)
      rw [elementHtml, elementContent, isDropped, if_neg Bool.false_ne_true, if_pos isBreak,
        if_neg Bool.false_ne_true, if_pos isBreak]
      exact lineBreak
    · rw [elementContent, isDropped, if_neg Bool.false_ne_true, if_neg isBreak]
      exact isInner.enclosed (permitted_elementHtml href style inner isDropped isBreak)

mutual

theorem written_toHtml (mode : Mode) : ∀ node, Written (toHtml mode node) (content node)
  | .text nodeValue => by
    rw [toHtml, content]
    exact written_escape nodeValue
  | .other => by
    rw [toHtml, content]
    exact written_nil
  | .element tagName href style childNodes => by
    rw [toHtml, content]
    exact written_elementHtml _ href style (written_innerHtml mode childNodes)

theorem written_innerHtml (mode : Mode) :
    ∀ nodes, Written (innerHtml mode nodes) (innerContent nodes)
  | [] => by
    rw [innerHtml, innerContent]
    exact written_nil
  | child :: others => by
    rw [innerHtml, innerContent]
    exact (written_toHtml mode child).append (written_innerHtml mode others)

end

end

/-! ## Trimmed markup -/

theorem isAlpha_of_isJsSpace (blank : isJsSpace c = true) : c.isAlpha = false := by
  have none : ∀ n ∈ [9, 10, 11, 12, 13, 32, 160, 5760, 8192, 8193, 8194, 8195, 8196, 8197, 8198,
      8199, 8200, 8201, 8202, 8232, 8233, 8239, 8287, 12288, 65279],
      (Char.ofNat n).isAlpha = false := by decide
  have listed := none c.toNat (List.contains_iff_mem.mp blank)
  rwa [Char.ofNat_toNat] at listed

theorem isPlainTag_append_blank {back : Text} (blank : ∀ c ∈ back, isJsSpace c = true) (s : Text) :
    isPlainTag (s ++ back) = isPlainTag s := by
  have heads {start : Text} (solid : start.all (fun c => !isJsSpace c) = true) :
      ∀ c, back.head? = some c → c ∉ start := by
    intro c head member
    have isBlank := blank c (List.mem_of_mem_head? head)
    simpa [isBlank] using List.all_eq_true.mp solid c member
  have lower : asciiLower back = back := by
    refine (List.map_congr_left fun c member => ?_).trans (List.map_id back)
    exact toLower_of_not_alpha (isAlpha_of_isJsSpace (blank c member))
  have slash : startsWith ['/'] (s ++ back) = startsWith ['/'] s :=
    startsWith_append (heads (by decide))
  have rest : (if startsWith ['/'] (s ++ back) then (s ++ back).tail else s ++ back) =
      (if startsWith ['/'] s then s.tail else s) ++ back := by
    rw [slash]
    split_ifs with slashed
    · cases s with
      | nil => cases slashed
      | cons c others => rfl
    · rfl
  rw [isPlainTag, isPlainTag, rest]
  simp only [asciiLower, List.map_append]
  rw [← asciiLower, ← asciiLower, lower, startsWith_append (heads (by decide)),
    startsWith_append (heads (by decide))]

theorem hasFormatting_append_blank {back : Text} (blank : ∀ c ∈ back, isJsSpace c = true)
    (s : Text) : hasFormatting (s ++ back) = hasFormatting s := by
  induction s with
  | nil =>
    have unopened : '<' ∉ back := fun member => absurd (blank _ member) (by decide)
    rw [List.nil_append]
    exact (congrArg hasFormatting (List.append_nil back)).symm.trans
      (hasFormatting_append unopened [])
  | cons c rest ih =>
    rw [List.cons_append, hasFormatting, ih, isPlainTag_append_blank blank, hasFormatting]

theorem Written.trimmed {html content : Text} (written : Written html content) :
    ∃ tokens, lex (jsTrim html) = some tokens ∧
      ink (decode (characters tokens)) = ink content ∧
      hasFormatting (jsTrim html) = tokens.any isFormatting := by
  obtain ⟨tokens, isRead, isText, formatting⟩ := written
  obtain ⟨front, back, isWhole, blankFront, blankBack⟩ := exists_trimBy isJsSpace html
  rw [← jsTrim] at isWhole
  have solid {c : Char} (notBlank : isJsSpace c = false) : c ∉ front ∧ c ∉ back :=
    ⟨fun member => absurd (blankFront c member) (by simp [notBlank]),
      fun member => absurd (blankBack c member) (by simp [notBlank])⟩
  obtain ⟨inner, state, readInner⟩ :
      ∃ inner state, readAll .data (jsTrim html) = (inner, state) := ⟨_, _, rfl⟩
  obtain ⟨later, last, readBack⟩ : ∃ later last, readAll state back = (later, last) := ⟨_, _, rfl⟩
  have readFront := readAll_data (solid (c := '<') (by decide)).1
  have readWhole := readAll_append (readAll_append readFront readInner) readBack
  rw [← isWhole, isRead] at readWhole
  cases readWhole
  -- A tag that the white space ends would have been text.
  have unopened : .char '<' ∉ later := by
    intro member
    have inText : '<' ∈ characters (front.map .char ++ inner ++ later) :=
      List.mem_filterMap.mpr ⟨_, List.mem_append_right _ member, rfl⟩
    rw [isText] at inText
    exact not_mem_escapeMarkup (Or.inl rfl) content inText
  have outside := state_of_readAll readBack (solid (by decide)).2 unopened
  subst outside
  rw [readAll_data (solid (by decide)).2] at readBack
  obtain ⟨rfl, _⟩ := Prod.mk.inj readBack
  rw [characters_append, characters_append, characters_map_char, characters_map_char] at isText
  obtain ⟨core, rfl, isCore⟩ :=
    escapeMarkup_eq_append (solid (by decide)).1 (solid (by decide)).2 isText.symm
  refine ⟨inner, ?_, ?_, ?_⟩
  · rw [lex, readInner]
  · rw [isCore, decode_escapeMarkup, ink_append, ink_append, ink_of_blank blankFront,
      ink_of_blank blankBack, List.nil_append, List.append_nil]
  · have alone := formatting []
    rw [List.append_nil, isWhole, List.append_assoc, hasFormatting_append (solid (by decide)).1,
      hasFormatting_append_blank blankBack, List.any_append, List.any_append,
      any_isFormatting_char, any_isFormatting_char, Bool.false_or, Bool.or_false] at alone
    exact alone.trans (Bool.or_false _)

section

variable [AsciiUnicode] [Browser]

def sanitized (editorHtml : Text) : Text := jsTrim (innerHtml .wire (Browser.parse editorHtml))

theorem both_parts_say_the_same (editorHtml : Text) :
    ∃ tokens, lex (sanitized editorHtml) = some tokens ∧
      asText (composeMarked editorHtml) = (compose editorHtml).text ∧
      ink (decode (characters tokens)) = ink (unmarked (composeMarked editorHtml)) ∧
      (∀ html, (compose editorHtml).html = some html → html = sanitized editorHtml) ∧
      ((compose editorHtml).html = none ↔ ∀ token ∈ tokens, isFormatting token = false) := by
  obtain ⟨tokens, isRead, isText, formatting⟩ :=
    (written_innerHtml .wire (Browser.parse editorHtml)).trimmed
  rw [← sanitized] at isRead formatting
  have composed : (compose editorHtml).html =
      if tokens.any isFormatting then some (sanitized editorHtml) else none := by
    rw [← formatting]
    rfl
  refine ⟨tokens, isRead, asText_composeMarked editorHtml, ?_, ?_, ?_⟩
  · rw [isText]
    exact (inkOf_composeMarked editorHtml).symm
  · intro html isHtml
    rw [composed] at isHtml
    split_ifs at isHtml
    exact (Option.some.inj isHtml).symm
  · have plain : (∀ token ∈ tokens, isFormatting token = false) ↔
        tokens.any isFormatting = false := by
      simp only [List.any_eq_false, Bool.not_eq_true]
    rw [composed, plain]
    cases tokens.any isFormatting with
    | true => simp
    | false => simp

end

end Eeemail.Desktop.Alternatives
