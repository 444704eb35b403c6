import Eeemail.Lib.Markup
import Eeemail.Desktop.Fields

/-! # The composer's filter

`desktop/src/richtext.ts`: a document tree is walked and written again with a
small set of tags and attributes, and once more as plain text.  A browser that
reads the markup finds those tags, properly nested, and text, whatever was in
the tree. -/

set_option autoImplicit false

namespace Eeemail.Desktop.RichText

open Lib.Texts Lib.Html Lib.Markup Desktop.Fields

variable {tag inner outer : Text} {attributes : List (Text × Text)}

structure Url where
  protocol : Text
  href : Text
  deriving DecidableEq, Repr

/-- A node of a document.  The style of an element is what `getPropertyValue`
answers, if the element has one to ask. -/
inductive Node where
  | text (nodeValue : Text)
  | element (tagName : Text) (href : Option Text) (style : Option (Text → Text))
      (childNodes : List Node)
  | other

/-- The parts of the browser that are called. -/
class Browser where
  /-- `new URL(href)`, which throws on what is no absolute address. -/
  parseUrl : Text → Option Url
  toUpperCase : Text → Text
  /-- `parse`: the nodes of markup that is not shown. -/
  parse : Text → List Node

inductive Mode where
  | wire
  | editor
  deriving DecidableEq, Repr

/-! ## Tables -/

def allowed : List Text :=
  ["B", "I", "U", "S", "H1", "H2", "H3", "UL", "OL", "LI", "BLOCKQUOTE", "CODE", "PRE", "P", "BR",
    "A", "SPAN"].map String.toList

def dropped : List Text :=
  ["SCRIPT", "STYLE", "TEMPLATE", "TITLE", "META", "LINK", "NOSCRIPT", "IFRAME", "OBJECT", "EMBED",
    "SVG", "MATH", "SELECT", "TEXTAREA"].map String.toList

def renamed : List (Text × Text) :=
  [("STRONG", "B"), ("EM", "I"), ("STRIKE", "S"), ("DEL", "S"), ("INS", "U"), ("DIV", "P")].map
    fun (tag, name) => (tag.toList, name.toList)

def blocks : List Text :=
  ["P", "H1", "H2", "H3", "LI", "BLOCKQUOTE", "PRE", "UL", "OL"].map String.toList

def alignable : List Text :=
  ["P", "H1", "H2", "H3", "LI", "BLOCKQUOTE", "PRE"].map String.toList

/-- The values of `FONTS`. -/
def fonts : List Text := ["sans-serif", "serif", "monospace"].map String.toList

/-- The values of `SIZES`. -/
def sizes : List Text := ["small", "large", "x-large"].map String.toList

def alignments : List Text := ["left", "center", "right", "justify"].map String.toList

/-! ## Checks -/

def isRgbChar (c : Char) : Bool := c.isDigit || isJsSpace c || ".,%/".toList.contains c

def isRgbRest (rest : Text) : Bool :=
  rest.getLast? == some ')' && !rest.dropLast.isEmpty && rest.dropLast.all isRgbChar

/-- `/^rgba?\([\d\s.,%/]+\)$/`. -/
def isRgb : Text → Bool
  | 'r' :: 'g' :: 'b' :: 'a' :: '(' :: rest => isRgbRest rest
  | 'r' :: 'g' :: 'b' :: '(' :: rest => isRgbRest rest
  | _ => false

/-- `/^#[0-9a-f]{3,8}$/`. -/
def isHexColour : Text → Bool
  | '#' :: digits =>
    decide (3 ≤ digits.length ∧ digits.length ≤ 8) &&
      digits.all fun c => c.isDigit || "abcdef".toList.contains c
  | _ => false

/-- `/^[a-z]+$/`. -/
def isKeyword (v : Text) : Bool := !v.isEmpty && v.all Char.isLower

def cssWide : List Text :=
  ["initial", "inherit", "unset", "revert", "revert-layer"].map String.toList

def isQuote (c : Char) : Bool := c == '"' || c == '\x27'

def dropQuote : Text → Text
  | [] => []
  | c :: rest => if isQuote c then rest else c :: rest

/-- `replace(/^["']|["']$/g, "")`. -/
def unquote (s : Text) : Text := (dropQuote (dropQuote s).reverse).reverse

section

variable [Unicode]

def colour (value : Text) : Option Text :=
  if cssWide.contains (lowercase (jsTrim value)) then none
  else if isRgb (lowercase (jsTrim value)) || isHexColour (lowercase (jsTrim value)) ||
      isKeyword (lowercase (jsTrim value)) then some (lowercase (jsTrim value))
  else none

def fontFamily (value : Text) : Option Text :=
  let first := lowercase (unquote (jsTrim ((split ',' value).headD [])))
  if fonts.contains first then some first else none

def fontSize (value : Text) : Option Text :=
  let v := lowercase (jsTrim value)
  if sizes.contains v then some v else none

structure SpanStyle where
  property : Text
  className : Text
  check : Text → Option Text

def spanStyles : List SpanStyle :=
  [⟨"color".toList, "color".toList, colour⟩,
    ⟨"background-color".toList, "highlight".toList, colour⟩,
    ⟨"font-family".toList, "font".toList, fontFamily⟩,
    ⟨"font-size".toList, "size".toList, fontSize⟩]

variable [Browser]

def safeHref (href : Text) : Option Text :=
  match Browser.parseUrl href with
  | none => none
  | some url =>
    if url.protocol = "http:".toList ∨ url.protocol = "https:".toList ∨
        url.protocol = "mailto:".toList then some url.href
    else none

/-! ## The walk -/

def tagOf (tagName : Text) : Text :=
  (renamed.lookup (Browser.toUpperCase tagName)).getD (Browser.toUpperCase tagName)

def escape (text : Text) : Text := escapeMarkup text

structure Kept where
  css : Text
  className : Text

def keptStyles (style : Option (Text → Text)) : List Kept :=
  spanStyles.flatMap fun entry =>
    match entry.check ((style.map (· entry.property)).getD []) with
    | none => []
    | some value => [⟨entry.property ++ ':' :: value, entry.className⟩]

def spanHtml (mode : Mode) (style : Option (Text → Text)) (inner : Text) : Text :=
  let kept := keptStyles style
  if kept.isEmpty then inner
  else
    match mode with
    | .wire =>
      "<span style=\"".toList ++ escape (join [';'] (kept.map (·.css))) ++ "\">".toList ++ inner ++
        "</span>".toList
    | .editor =>
      kept.foldr (fun k html =>
        "<span class=\"".toList ++ k.className ++ "\" style=\"".toList ++ escape k.css ++
          "\">".toList ++ html ++ "</span>".toList) inner

def alignOf (tag : Text) (style : Option (Text → Text)) : Text :=
  if alignable.contains tag then jsTrim ((style.map (· "text-align".toList)).getD []) else []

/-- The class that the editor finds an alignment by. -/
def alignClass (mode : Mode) (align : Text) : Text :=
  match mode with
  | .editor => " class=\"align-".toList ++ align ++ "\"".toList
  | .wire => []

omit [Unicode] [Browser] in
theorem alignClass_wire (align : Text) : alignClass .wire align = [] := rfl

omit [Unicode] [Browser] in
theorem alignClass_editor (align : Text) :
    alignClass .editor align = " class=\"align-".toList ++ align ++ "\"".toList := rfl

def blockHtml (mode : Mode) (tag : Text) (style : Option (Text → Text)) (inner : Text) : Text :=
  let name := lowercase tag
  let align := alignOf tag style
  if alignments.contains align then
    "<".toList ++ name ++ alignClass mode align ++ " style=\"text-align:".toList ++ align ++
      "\">".toList ++ inner ++ "</".toList ++ name ++ ">".toList
  else "<".toList ++ name ++ ">".toList ++ inner ++ "</".toList ++ name ++ ">".toList

def elementHtml (mode : Mode) (tag : Text) (href : Option Text) (style : Option (Text → Text))
    (inner : Text) : Text :=
  if dropped.contains tag then []
  else if tag = "BR".toList then "<br>".toList
  else if !allowed.contains tag then inner
  else if tag = "A".toList then
    match safeHref (href.getD []) with
    | none => inner
    | some target => "<a href=\"".toList ++ escape target ++ "\">".toList ++ inner ++ "</a>".toList
  else if tag = "SPAN".toList then spanHtml mode style inner
  else blockHtml mode tag style inner

mutual

def toHtml (mode : Mode) : Node → Text
  | .text nodeValue => escape nodeValue
  | .other => []
  | .element tagName href style childNodes =>
    elementHtml mode (tagOf tagName) href style (innerHtml mode childNodes)

def innerHtml (mode : Mode) : List Node → Text
  | [] => []
  | child :: others => toHtml mode child ++ innerHtml mode others

end

/-! ## Plain text -/

/-- `replace(/\n+$/, "")`. -/
def dropNewlines (s : Text) : Text := trimEndBy (· == '\n') s

def quoteLine (line : Text) : Text := if line.isEmpty then ['>'] else '>' :: ' ' :: line

/-- The text of an element, given the text of its children.  A line break at the
end of a block is not a line of its own. -/
def elementText (parent : Option Text) (last : Bool) (tag inner : Text) : Text :=
  if dropped.contains tag then []
  else if tag = "BR".toList then
    if last && parent.any blocks.contains then [] else ['\n']
  else if tag = "LI".toList then "- ".toList ++ dropNewlines inner ++ ['\n']
  else if tag = "BLOCKQUOTE".toList then
    join ['\n'] ((split '\n' (dropNewlines inner)).map quoteLine) ++ ['\n']
  else if blocks.contains tag then inner ++ ['\n']
  else inner

mutual

/-- `toText`, of a node that is the last one of its parent or not. -/
def toText (parent : Option Text) (last : Bool) : Node → Text
  | .text nodeValue => nodeValue
  | .other => []
  | .element tagName _ _ childNodes =>
    elementText parent last (tagOf tagName) (innerText (some (tagOf tagName)) childNodes)

def innerText (parent : Option Text) : List Node → Text
  | [] => []
  | child :: others => toText parent others.isEmpty child ++ innerText parent others

end

/-- `replace(/\n{3,}/g, "\n\n")`. -/
def collapseNewlines (s : Text) : Text :=
  s.foldr (fun c rest => if c = '\n' ∧ startsWith ['\n', '\n'] rest then rest else c :: rest) []

/-! ## Composing -/

def isPlainTag (rest : Text) : Bool :=
  let name := asciiLower (if startsWith ['/'] rest then rest.tail else rest)
  startsWith "p>".toList name || startsWith "br>".toList name

/-- `/<(?!\/?(?:p|br)>)/i.test(html)`. -/
def hasFormatting : Text → Bool
  | [] => false
  | c :: rest => (c == '<' && !isPlainTag rest) || hasFormatting rest

structure Composed where
  text : Text
  html : Option Text
  deriving DecidableEq, Repr

def compose (editorHtml : Text) : Composed :=
  let nodes := Browser.parse editorHtml
  let html := jsTrim (innerHtml .wire nodes)
  { text := jsTrim (collapseNewlines (innerText none nodes))
    html := if hasFormatting html then some html else none }

def fromText (text : Text) : Text :=
  (split '\n' text).flatMap fun line =>
    "<p>".toList ++ (if line.isEmpty then "<br>".toList else escape line) ++ "</p>".toList

def Checked (css : Text) : Prop :=
  ∃ entry ∈ spanStyles, ∃ input value, entry.check input = some value ∧
    css = entry.property ++ ':' :: value

/-- The attributes that an allowed tag may have. -/
inductive Permitted (mode : Mode) : Text → List (Text × Text) → Prop where
  | bare {tag : Text} (isAllowed : tag ∈ allowed) (notBreak : tag ≠ "BR".toList)
      (notLink : tag ≠ "A".toList) (notSpan : tag ≠ "SPAN".toList) : Permitted mode tag []
  | link {input href : Text} (safe : safeHref input = some href) :
      Permitted mode "A".toList [("href".toList, href)]
  | styled {declarations : List Text} (toWire : mode = .wire) (someStyle : declarations ≠ [])
      (checked : ∀ css ∈ declarations, Checked css) :
      Permitted mode "SPAN".toList [("style".toList, join [';'] declarations)]
  | marked {entry : SpanStyle} {input value : Text} (toEditor : mode = .editor)
      (isEntry : entry ∈ spanStyles) (accepted : entry.check input = some value) :
      Permitted mode "SPAN".toList
        [("class".toList, entry.className), ("style".toList, entry.property ++ ':' :: value)]
  | aligned {tag align : Text} (toWire : mode = .wire) (isBlock : tag ∈ alignable)
      (isAlignment : align ∈ alignments) :
      Permitted mode tag [("style".toList, "text-align:".toList ++ align)]
  | alignedMarked {tag align : Text} (toEditor : mode = .editor) (isBlock : tag ∈ alignable)
      (isAlignment : align ∈ alignments) :
      Permitted mode tag
        [("class".toList, "align-".toList ++ align),
         ("style".toList, "text-align:".toList ++ align)]

/-- Properly nested tags that are permitted, and escaped text. -/
inductive Clean (mode : Mode) : List Token → Prop where
  | nothing : Clean mode []
  | text (content : Text) : Clean mode ((escape content).map .char)
  | lineBreak : Clean mode [.start "br".toList []]
  | element {tag : Text} {attributes : List (Text × Text)} {inner : List Token}
      (isPermitted : Permitted mode tag attributes) (isClean : Clean mode inner) :
      Clean mode (.start (lowercase tag) attributes :: inner ++ [.stop (lowercase tag)])
  | both {first second : List Token} (isFirst : Clean mode first) (isSecond : Clean mode second) :
      Clean mode (first ++ second)

end

section

variable [AsciiUnicode] [Browser] {mode : Mode}

omit [Browser] in
theorem lowercase_allowed (isAllowed : tag ∈ allowed) :
    lowercase tag = asciiLower tag ∧ isName (lowercase tag) = true := by
  have named : ∀ tag ∈ allowed, tag.all isPlain = true ∧ isName (asciiLower tag) = true := by
    decide
  obtain ⟨plain, valid⟩ := named tag isAllowed
  rw [lowercase_of_plain plain]
  exact ⟨rfl, valid⟩

omit [AsciiUnicode] [Browser] in
theorem allowed_of_alignable (isBlock : tag ∈ alignable) : tag ∈ allowed := by
  have blocks : ∀ tag ∈ alignable, tag ∈ allowed := by decide
  exact blocks tag isBlock

theorem Permitted.isAllowed (isPermitted : Permitted mode tag attributes) : tag ∈ allowed := by
  cases isPermitted with
  | bare isAllowed => exact isAllowed
  | link | styled | marked => decide
  | aligned _ isBlock | alignedMarked _ isBlock => exact allowed_of_alignable isBlock

theorem Permitted.names (isPermitted : Permitted mode tag attributes) :
    ∀ pair ∈ attributes, isName pair.1 = true := by
  have own : isName "href".toList = true ∧ isName "style".toList = true ∧
      isName "class".toList = true := by decide
  obtain ⟨href, style, cls⟩ := own
  cases isPermitted with
  | bare => exact fun _ member => nomatch member
  | link => simpa using href
  | styled | aligned => simpa using style
  | marked | alignedMarked => simpa using ⟨cls, style⟩

/-! ## Elements -/

/-- What an element is written as: its tag and attributes, by what it carries. -/
inductive WrittenAs (mode : Mode) (href : Option Text) (style : Option (Text → Text)) :
    Text → List (Text × Text) → Prop where
  | bare {tag : Text} (isAllowed : tag ∈ allowed) (notBreak : tag ≠ "BR".toList)
      (notLink : tag ≠ "A".toList) (notSpan : tag ≠ "SPAN".toList) :
      WrittenAs mode href style tag []
  | link {target : Text} (safe : safeHref (href.getD []) = some target) :
      WrittenAs mode href style "A".toList [("href".toList, target)]
  | styled (toWire : mode = .wire) (someStyle : keptStyles style ≠ []) :
      WrittenAs mode href style "SPAN".toList
        [("style".toList, join [';'] ((keptStyles style).map (·.css)))]
  | marked {k : Kept} (toEditor : mode = .editor) (isKept : k ∈ keptStyles style) :
      WrittenAs mode href style "SPAN".toList
        [("class".toList, k.className), ("style".toList, k.css)]
  | aligned {tag align : Text} (toWire : mode = .wire) (isBlock : tag ∈ alignable)
      (isAlignment : align ∈ alignments) :
      WrittenAs mode href style tag [("style".toList, "text-align:".toList ++ align)]
  | alignedMarked {tag align : Text} (toEditor : mode = .editor) (isBlock : tag ∈ alignable)
      (isAlignment : align ∈ alignments) :
      WrittenAs mode href style tag
        [("class".toList, "align-".toList ++ align),
         ("style".toList, "text-align:".toList ++ align)]

/-- A text with elements around it, each of them one that is `permitted`. -/
inductive Encloses (permitted : Text → List (Text × Text) → Prop) (inner : Text) : Text → Prop where
  | same : Encloses permitted inner inner
  | element {tag outer : Text} {attributes : List (Text × Text)}
      (isPermitted : permitted tag attributes) (encloses : Encloses permitted inner outer) :
      Encloses permitted inner
        (startTag (lowercase tag) attributes ++ outer ++ endTag (lowercase tag))

omit [Browser] in
theorem Encloses.around {permitted : Text → List (Text × Text) → Prop} {whole : Text}
    (first : Encloses permitted inner outer) (second : Encloses permitted outer whole) :
    Encloses permitted inner whole := by
  induction second with
  | same => exact first
  | element isPermitted _ ih => exact .element isPermitted ih

omit [Browser] in
theorem Encloses.once {permitted : Text → List (Text × Text) → Prop}
    (isPermitted : permitted tag attributes) (inner : Text) :
    Encloses permitted inner
      (startTag (lowercase tag) attributes ++ inner ++ endTag (lowercase tag)) :=
  .element isPermitted .same

omit [Browser] in
theorem Encloses.mono {permitted other : Text → List (Text × Text) → Prop}
    (stronger : ∀ tag attributes, permitted tag attributes → other tag attributes)
    (encloses : Encloses permitted inner outer) : Encloses other inner outer := by
  induction encloses with
  | same => exact .same
  | element isPermitted _ ih => exact .element (stronger _ _ isPermitted) ih

/-! ## Writing -/

def Emits (mode : Mode) (html : Text) : Prop :=
  ∃ tokens, readAll .data html = (tokens, .data) ∧ Clean mode tokens

theorem emits_nil : Emits mode [] := ⟨[], rfl, .nothing⟩

theorem emits_escape (content : Text) : Emits mode (escape content) :=
  ⟨_, readAll_escapeMarkup content, .text content⟩

theorem emits_append {first second : Text} (isFirst : Emits mode first)
    (isSecond : Emits mode second) : Emits mode (first ++ second) := by
  obtain ⟨early, readFirst, cleanFirst⟩ := isFirst
  obtain ⟨later, readSecond, cleanSecond⟩ := isSecond
  exact ⟨early ++ later, readAll_append readFirst readSecond, .both cleanFirst cleanSecond⟩

theorem emits_element (isPermitted : Permitted mode tag attributes) (isInner : Emits mode inner) :
    Emits mode (startTag (lowercase tag) attributes ++ inner ++ endTag (lowercase tag)) := by
  obtain ⟨tokens, isRead, isClean⟩ := isInner
  have valid := (lowercase_allowed isPermitted.isAllowed).2
  have opened := readAll_startTag valid isPermitted.names
  exact ⟨_, readAll_append (readAll_append opened isRead) (readAll_endTag valid),
    .element isPermitted isClean⟩

/-! ## The templates -/

section

omit [AsciiUnicode] [Browser]

theorem endTag_eq (name : Text) : endTag name = "</".toList ++ name ++ ">".toList := rfl

theorem startTag_bare (name : Text) : startTag name [] = "<".toList ++ name ++ ">".toList := by
  simp [startTag, attributeList]

theorem startTag_style (name css : Text) :
    startTag name [("style".toList, css)] =
      "<".toList ++ name ++ " style=\"".toList ++ escape css ++ "\">".toList := by
  simp [startTag, attributeList, escape]

theorem startTag_class_style (name cls css : Text) :
    startTag name [("class".toList, cls), ("style".toList, css)] =
      "<".toList ++ name ++ " class=\"".toList ++ escape cls ++ "\" style=\"".toList ++
        escape css ++
        "\">".toList := by
  simp [startTag, attributeList, escape]

end

omit [Browser] in
theorem lowercase_link : lowercase "A".toList = "a".toList :=
  (lowercase_allowed (by decide)).1.trans (by decide)

omit [AsciiUnicode] [Browser] in
theorem startTag_href (target : Text) :
    startTag "a".toList [("href".toList, target)] =
      "<a href=\"".toList ++ escape target ++ "\">".toList := by
  simp [startTag, attributeList, escape]

section

variable {href : Option Text} {style : Option (Text → Text)}

theorem encloses_link {target : Text} (inner : Text)
    (safe : safeHref (href.getD []) = some target) :
    Encloses (WrittenAs mode href style) inner
      ("<a href=\"".toList ++ escape target ++ "\">".toList ++ inner ++ "</a>".toList) := by
  have link : WrittenAs mode href style "A".toList [("href".toList, target)] := .link safe
  have whole := Encloses.once link inner
  rw [lowercase_link, startTag_href] at whole
  exact whole

omit [Browser] in
theorem lowercase_span : lowercase "SPAN".toList = "span".toList :=
  (lowercase_allowed (by decide)).1.trans (by decide)

theorem encloses_styled (inner : Text) (someStyle : keptStyles style ≠ []) :
    Encloses (WrittenAs .wire href style) inner
      ("<span style=\"".toList ++ escape (join [';'] ((keptStyles style).map (·.css))) ++
        "\">".toList ++ inner ++ "</span>".toList) := by
  have span : WrittenAs .wire href style "SPAN".toList
      [("style".toList, join [';'] ((keptStyles style).map (·.css)))] := .styled rfl someStyle
  have whole := Encloses.once span inner
  rw [lowercase_span, startTag_style] at whole
  exact whole

omit [Browser] in
theorem escape_className {entry : SpanStyle} (isEntry : entry ∈ spanStyles) :
    escape entry.className = entry.className := by
  have listed : entry.className ∈ spanStyles.map (·.className) := List.mem_map_of_mem isEntry
  have own : ∀ name ∈ ["color", "highlight", "font", "size"].map String.toList,
      escape name = name := by decide
  exact own _ listed

omit [Browser] in
theorem mem_keptStyles {style : Option (Text → Text)} {k : Kept} (member : k ∈ keptStyles style) :
    ∃ entry ∈ spanStyles, ∃ input value, entry.check input = some value ∧
      k = ⟨entry.property ++ ':' :: value, entry.className⟩ := by
  obtain ⟨entry, isEntry, isKept⟩ := List.mem_flatMap.mp member
  split at isKept
  next => cases isKept
  next value accepted =>
    exact ⟨entry, isEntry, _, value, accepted, List.mem_singleton.mp isKept⟩

theorem encloses_marked {k : Kept} (inner : Text) (isKept : k ∈ keptStyles style) :
    Encloses (WrittenAs .editor href style) inner
      ("<span class=\"".toList ++ k.className ++ "\" style=\"".toList ++ escape k.css ++
        "\">".toList ++ inner ++ "</span>".toList) := by
  obtain ⟨entry, isEntry, input, value, accepted, isK⟩ := mem_keptStyles isKept
  have className : escape k.className = k.className := isK ▸ escape_className isEntry
  have span : WrittenAs .editor href style "SPAN".toList
      [("class".toList, k.className), ("style".toList, k.css)] := .marked rfl isKept
  have whole := Encloses.once span inner
  rw [lowercase_span, startTag_class_style, className] at whole
  exact whole

theorem encloses_spanHtml (inner : Text) :
    Encloses (WrittenAs mode href style) inner (spanHtml mode style inner) := by
  unfold spanHtml
  simp only
  split
  next => exact .same
  next someStyle =>
    cases mode with
    | wire => exact encloses_styled inner (by simpa using someStyle)
    | editor =>
      -- One element for every style that is kept, the first outermost.
      have each : ∀ kept : List Kept, (∀ k ∈ kept, k ∈ keptStyles style) →
          Encloses (WrittenAs .editor href style) inner (kept.foldr (fun k html =>
            "<span class=\"".toList ++ k.className ++ "\" style=\"".toList ++ escape k.css ++
              "\">".toList ++ html ++ "</span>".toList) inner) := by
        intro kept
        induction kept with
        | nil => exact fun _ => .same
        | cons k others ih =>
          intro isKept
          have inside := ih fun other member => isKept other (List.mem_cons_of_mem _ member)
          exact inside.around (encloses_marked _ (isKept k List.mem_cons_self))
      exact each (keptStyles style) fun _ => id

theorem encloses_bare (inner : Text) (bare : WrittenAs mode href style tag []) :
    Encloses (WrittenAs mode href style) inner
      ("<".toList ++ lowercase tag ++ ">".toList ++ inner ++
      "</".toList ++ lowercase tag ++ ">".toList) := by
  have whole := Encloses.once bare inner
  rw [startTag_bare, endTag_eq] at whole
  simpa only [List.append_assoc] using whole

omit [AsciiUnicode] [Browser] in
theorem escape_alignment {align : Text} (isAlignment : align ∈ alignments) :
    escape ("text-align:".toList ++ align) = "text-align:".toList ++ align ∧
      escape ("align-".toList ++ align) = "align-".toList ++ align := by
  have plain : ∀ align ∈ alignments,
      escape ("text-align:".toList ++ align) = "text-align:".toList ++ align ∧
        escape ("align-".toList ++ align) = "align-".toList ++ align := by decide
  exact plain align isAlignment

theorem encloses_aligned {align : Text} (inner : Text) (isBlock : tag ∈ alignable)
    (isAlignment : align ∈ alignments) :
    Encloses (WrittenAs mode href style) inner ("<".toList ++ lowercase tag ++
      alignClass mode align ++ " style=\"text-align:".toList ++ align ++ "\">".toList ++ inner ++
      "</".toList ++ lowercase tag ++ ">".toList) := by
  obtain ⟨css, cls⟩ := escape_alignment isAlignment
  have styled : " style=\"text-align:".toList =
      " style=\"".toList ++ "text-align:".toList := by decide
  cases mode with
  | wire =>
    have block : WrittenAs .wire href style tag
        [("style".toList, "text-align:".toList ++ align)] := .aligned rfl isBlock isAlignment
    have whole := Encloses.once block inner
    rw [startTag_style, css, endTag_eq] at whole
    rw [alignClass_wire, styled, List.append_nil]
    simpa only [List.append_assoc] using whole
  | editor =>
    have marked : " class=\"align-".toList = " class=\"".toList ++ "align-".toList := by decide
    have quoted : "\" style=\"".toList = "\"".toList ++ " style=\"".toList := by decide
    have block : WrittenAs .editor href style tag
        [("class".toList, "align-".toList ++ align),
          ("style".toList, "text-align:".toList ++ align)] :=
      .alignedMarked rfl isBlock isAlignment
    have whole := Encloses.once block inner
    rw [startTag_class_style, cls, css, endTag_eq, quoted] at whole
    rw [alignClass_editor, styled, marked]
    simpa only [List.append_assoc] using whole

omit [AsciiUnicode] [Browser] in
theorem alignable_of_alignOf {style : Option (Text → Text)}
    (isAlignment : alignOf tag style ∈ alignments) : tag ∈ alignable := by
  unfold alignOf at isAlignment
  split at isAlignment
  next isBlock => exact List.contains_iff_mem.mp isBlock
  next => exact absurd isAlignment (by decide)

theorem encloses_blockHtml (inner : Text) (bare : WrittenAs mode href style tag []) :
    Encloses (WrittenAs mode href style) inner (blockHtml mode tag style inner) := by
  unfold blockHtml
  simp only
  split
  next aligned =>
    have isAlignment := List.contains_iff_mem.mp aligned
    exact encloses_aligned inner (alignable_of_alignOf isAlignment) isAlignment
  next => exact encloses_bare inner bare

end

theorem encloses_elementHtml (href : Option Text) (style : Option (Text → Text)) (inner : Text)
    (notDropped : dropped.contains tag = false) (notBreak : tag ≠ "BR".toList) :
    Encloses (WrittenAs mode href style) inner (elementHtml mode tag href style inner) := by
  rw [elementHtml, notDropped, if_neg Bool.false_ne_true, if_neg notBreak]
  split
  next => exact .same
  next isAllowed =>
    have member : tag ∈ allowed := by simpa using isAllowed
    split
    next isLink =>
      cases safe : safeHref (href.getD []) with
      | none => exact .same
      | some target => exact encloses_link inner safe
    next notLink =>
      split
      next => exact encloses_spanHtml inner
      next notSpan =>
        exact encloses_blockHtml inner (.bare member notBreak notLink notSpan)

theorem WrittenAs.permitted {href : Option Text} {style : Option (Text → Text)} (tag : Text)
    (attributes : List (Text × Text)) (written : WrittenAs mode href style tag attributes) :
    Permitted mode tag attributes := by
  cases written with
  | bare isAllowed notBreak notLink notSpan => exact .bare isAllowed notBreak notLink notSpan
  | link safe => exact .link safe
  | styled toWire someStyle =>
    refine .styled toWire (by simpa using someStyle) fun css member => ?_
    obtain ⟨k, isKept, rfl⟩ := List.mem_map.mp member
    obtain ⟨entry, isEntry, input, value, accepted, rfl⟩ := mem_keptStyles isKept
    exact ⟨entry, isEntry, input, value, accepted, rfl⟩
  | marked toEditor isKept =>
    obtain ⟨entry, isEntry, input, value, accepted, rfl⟩ := mem_keptStyles isKept
    exact .marked toEditor isEntry accepted
  | aligned toWire isBlock isAlignment => exact .aligned toWire isBlock isAlignment
  | alignedMarked toEditor isBlock isAlignment => exact .alignedMarked toEditor isBlock isAlignment

theorem permitted_elementHtml (href : Option Text) (style : Option (Text → Text)) (inner : Text)
    (notDropped : dropped.contains tag = false) (notBreak : tag ≠ "BR".toList) :
    Encloses (Permitted mode) inner (elementHtml mode tag href style inner) :=
  (encloses_elementHtml href style inner notDropped notBreak).mono WrittenAs.permitted

theorem Emits.enclosed (isInner : Emits mode inner)
    (encloses : Encloses (Permitted mode) inner outer) :
    Emits mode outer := by
  induction encloses with
  | same => exact isInner
  | element isPermitted _ ih => exact emits_element isPermitted ih

theorem emits_break : Emits mode "<br>".toList := ⟨[.start "br".toList []], by decide, .lineBreak⟩

theorem emits_elementHtml (tag : Text) (href : Option Text) (style : Option (Text → Text))
    (isInner : Emits mode inner) : Emits mode (elementHtml mode tag href style inner) := by
  cases isDropped : dropped.contains tag with
  | true =>
    rw [elementHtml, isDropped, if_pos rfl]
    exact emits_nil
  | false =>
    by_cases isBreak : tag = "BR".toList
    · rw [elementHtml, isDropped, if_neg Bool.false_ne_true, if_pos isBreak]
      exact emits_break
    · exact isInner.enclosed (permitted_elementHtml href style inner isDropped isBreak)

mutual

theorem emits_toHtml (mode : Mode) : ∀ node, Emits mode (toHtml mode node)
  | .text nodeValue => by
    rw [toHtml]
    exact emits_escape nodeValue
  | .other => by
    rw [toHtml]
    exact emits_nil
  | .element tagName href style childNodes => by
    rw [toHtml]
    exact emits_elementHtml _ _ _ (emits_innerHtml mode childNodes)

theorem emits_innerHtml (mode : Mode) : ∀ nodes, Emits mode (innerHtml mode nodes)
  | [] => by
    rw [innerHtml]
    exact emits_nil
  | child :: others => by
    rw [innerHtml]
    exact emits_append (emits_toHtml mode child) (emits_innerHtml mode others)

end

theorem toHtml_writes_only_permitted (mode : Mode) (node : Node) :
    ∃ tokens, lex (toHtml mode node) = some tokens ∧ Clean mode tokens := by
  obtain ⟨tokens, isRead, isClean⟩ := emits_toHtml mode node
  refine ⟨tokens, ?_, isClean⟩
  rw [lex, isRead]

/-- What the editor is given for a plain text is clean as well. -/
theorem emits_fromText (text : Text) : Emits mode (fromText text) := by
  have name : lowercase "P".toList = "p".toList :=
    (lowercase_allowed (by decide)).1.trans (by decide)
  unfold fromText
  induction split '\n' text with
  | nil => exact emits_nil
  | cons line others ih =>
    rw [List.flatMap_cons]
    refine emits_append ?_ ih
    have inner : Emits mode (if line.isEmpty then "<br>".toList else escape line) := by
      split
      · exact emits_break
      · exact emits_escape line
    have paragraph : Permitted mode "P".toList [] :=
      .bare (by decide) (by decide) (by decide) (by decide)
    have whole := emits_element paragraph inner
    rw [name, startTag_bare, endTag_eq] at whole
    exact whole

end

end Eeemail.Desktop.RichText
