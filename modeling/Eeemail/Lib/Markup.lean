import Eeemail.Lib.Html

/-! # Reading markup

How a browser takes markup apart into tags and text: the tokenizer of HTML from
its data state on, without the states for scripts and styles, and with every
comment or declaration read up to the next `>`.  Escaped text goes through the
data state as it is, and through a quoted attribute as its value, so that
markup written with `startTag` and `escapeMarkup` is read as it was meant. -/

set_option autoImplicit false

namespace Eeemail.Lib.Markup

open Lib.Texts Lib.Html

/-- Text is read character by character, its references not yet decoded. -/
inductive Token where
  | char (c : Char)
  | start (name : Text) (attributes : List (Text × Text))
  | stop (name : Text)
  deriving DecidableEq, Repr

structure Tag where
  closing : Bool
  name : Text
  attributes : List (Text × Text) := []
  deriving DecidableEq, Repr

def Tag.token (tag : Tag) : Token :=
  if tag.closing then .stop tag.name else .start tag.name tag.attributes

def Tag.add (tag : Tag) (name value : Text) : Tag :=
  { tag with attributes := tag.attributes ++ [(name, decode value)] }

inductive State where
  | data
  | tagOpen
  | endTagOpen
  | tagName (tag : Tag)
  | beforeAttributeName (tag : Tag)
  | attributeName (tag : Tag) (name : Text)
  | afterAttributeName (tag : Tag) (name : Text)
  | beforeAttributeValue (tag : Tag) (name : Text)
  | attributeValue (quote : Char) (tag : Tag) (name value : Text)
  | unquotedValue (tag : Tag) (name value : Text)
  | afterAttributeValue (tag : Tag)
  | selfClosing (tag : Tag)
  | bogusComment
  deriving DecidableEq, Repr

def isSpace (c : Char) : Bool := c == '\t' || c == '\n' || c == '\x0c' || c == ' '

/-! ## One character -/

def finish (tag : Tag) : List Token × State := ([tag.token], .data)

def readData (c : Char) : List Token × State :=
  if c = '<' then ([], .tagOpen) else ([.char c], .data)

def readTagOpen (c : Char) : List Token × State :=
  if c = '!' ∨ c = '?' then ([], .bogusComment)
  else if c = '/' then ([], .endTagOpen)
  else if c.isAlpha then ([], .tagName { closing := false, name := [c.toLower] })
  else
    -- No tag after all.
    let (tokens, state) := readData c
    (.char '<' :: tokens, state)

def readEndTagOpen (c : Char) : List Token × State :=
  if c.isAlpha then ([], .tagName { closing := true, name := [c.toLower] })
  else if c = '>' then ([], .data)
  else ([], .bogusComment)

def readTagName (tag : Tag) (c : Char) : List Token × State :=
  if isSpace c then ([], .beforeAttributeName tag)
  else if c = '/' then ([], .selfClosing tag)
  else if c = '>' then finish tag
  else ([], .tagName { tag with name := tag.name ++ [c.toLower] })

def readBeforeAttributeName (tag : Tag) (c : Char) : List Token × State :=
  if isSpace c then ([], .beforeAttributeName tag)
  else if c = '/' then ([], .selfClosing tag)
  else if c = '>' then finish tag
  else ([], .attributeName tag [c.toLower])

def readAfterAttributeName (tag : Tag) (name : Text) (c : Char) : List Token × State :=
  if isSpace c then ([], .afterAttributeName tag name)
  else if c = '/' then ([], .selfClosing (tag.add name []))
  else if c = '=' then ([], .beforeAttributeValue tag name)
  else if c = '>' then finish (tag.add name [])
  else ([], .attributeName (tag.add name []) [c.toLower])

def readAttributeName (tag : Tag) (name : Text) (c : Char) : List Token × State :=
  if isSpace c ∨ c = '/' ∨ c = '>' then readAfterAttributeName tag name c
  else if c = '=' then ([], .beforeAttributeValue tag name)
  else ([], .attributeName tag (name ++ [c.toLower]))

def readUnquotedValue (tag : Tag) (name value : Text) (c : Char) : List Token × State :=
  if isSpace c then ([], .beforeAttributeName (tag.add name value))
  else if c = '>' then finish (tag.add name value)
  else ([], .unquotedValue tag name (value ++ [c]))

def readBeforeAttributeValue (tag : Tag) (name : Text) (c : Char) : List Token × State :=
  if isSpace c then ([], .beforeAttributeValue tag name)
  else if c = '"' ∨ c = '\x27' then ([], .attributeValue c tag name [])
  else if c = '>' then finish (tag.add name [])
  else readUnquotedValue tag name [] c

def readAttributeValue (quote : Char) (tag : Tag) (name value : Text) (c : Char) :
    List Token × State :=
  if c = quote then ([], .afterAttributeValue (tag.add name value))
  else ([], .attributeValue quote tag name (value ++ [c]))

def readSelfClosing (tag : Tag) (c : Char) : List Token × State :=
  if c = '>' then finish tag else readBeforeAttributeName tag c

def read : State → Char → List Token × State
  | .data => readData
  | .tagOpen => readTagOpen
  | .endTagOpen => readEndTagOpen
  | .tagName tag => readTagName tag
  | .beforeAttributeName tag => readBeforeAttributeName tag
  | .attributeName tag name => readAttributeName tag name
  | .afterAttributeName tag name => readAfterAttributeName tag name
  | .beforeAttributeValue tag name => readBeforeAttributeValue tag name
  | .attributeValue quote tag name value => readAttributeValue quote tag name value
  | .unquotedValue tag name value => readUnquotedValue tag name value
  | .afterAttributeValue tag => readBeforeAttributeName tag
  | .selfClosing tag => readSelfClosing tag
  | .bogusComment => fun c => if c = '>' then ([], .data) else ([], .bogusComment)

/-! ## A text -/

def readAll : State → Text → List Token × State
  | state, [] => ([], state)
  | state, c :: rest =>
    let (tokens, next) := read state c
    let (later, last) := readAll next rest
    (tokens ++ later, last)

def lex (s : Text) : Option (List Token) :=
  match readAll .data s with
  | (tokens, .data) => some tokens
  | _ => none

variable {state : State} {tokens : List Token} {name s : Text}

theorem readAll_cons {next last : State} {c : Char} {rest : Text} {later : List Token}
    (first : read state c = (tokens, next)) (others : readAll next rest = (later, last)) :
    readAll state (c :: rest) = (tokens ++ later, last) := by
  rw [readAll, first]
  simp only [others]

theorem readAll_append {middle last : State} {t : Text} {early later : List Token}
    (first : readAll state s = (early, middle)) (second : readAll middle t = (later, last)) :
    readAll state (s ++ t) = (early ++ later, last) := by
  induction s generalizing state early with
  | nil =>
    cases first
    exact second
  | cons c rest ih =>
    obtain ⟨tokens, next, isRead⟩ : ∃ tokens next, read state c = (tokens, next) := ⟨_, _, rfl⟩
    obtain ⟨others, stop, isRest⟩ : ∃ others stop, readAll next rest = (others, stop) :=
      ⟨_, _, rfl⟩
    rw [readAll_cons isRead isRest] at first
    cases first
    rw [List.cons_append, readAll_cons isRead (ih isRest), List.append_assoc]

theorem readAll_collect (collecting : Text → State) (kept : Char → Prop)
    (one : ∀ collected c, kept c → read (collecting collected) c =
      ([], collecting (collected ++ [c]))) (all : ∀ c ∈ s, kept c) (collected : Text) :
    readAll (collecting collected) s = ([], collecting (collected ++ s)) := by
  induction s generalizing collected with
  | nil => rw [readAll, List.append_nil]
  | cons c rest ih =>
    have later := ih (fun d member => all d (List.mem_cons_of_mem _ member)) (collected ++ [c])
    rw [readAll_cons (one collected c (all c List.mem_cons_self)) later, List.append_assoc]
    rfl

theorem not_mem_escapeMarkup {c : Char} (special : c = '<' ∨ c = '>' ∨ c = '"') (s : Text) :
    c ∉ escapeMarkup s := by
  rcases special with rfl | rfl | rfl
  all_goals simp [escapeMarkup, mem_replaceAll]

theorem readAll_data (plain : '<' ∉ s) : readAll .data s = (s.map .char, .data) := by
  induction s with
  | nil => rfl
  | cons c rest ih =>
    have first : read .data c = ([.char c], .data) :=
      if_neg (Ne.symm (List.ne_of_not_mem_cons plain))
    exact readAll_cons first (ih (List.not_mem_of_not_mem_cons plain))

theorem readAll_escapeMarkup (s : Text) :
    readAll .data (escapeMarkup s) = ((escapeMarkup s).map .char, .data) :=
  readAll_data (not_mem_escapeMarkup (Or.inl rfl) s)

/-! ## Tags -/

def isNameChar (c : Char) : Bool := c.isLower || c.isDigit || c == '-'

/-- A name that a program writes: lowercase, with a letter first. -/
def isName (name : Text) : Bool := name.head?.any Char.isLower && name.all isNameChar

def attributeList (attributes : List (Text × Text)) : Text :=
  attributes.flatMap fun (name, value) =>
    ' ' :: name ++ ('=' :: '"' :: (escapeMarkup value ++ ['"']))

theorem attributeList_cons (name value : Text) (others : List (Text × Text)) :
    attributeList ((name, value) :: others) =
      ' ' :: name ++ ('=' :: '"' :: (escapeMarkup value ++ ['"'])) ++ attributeList others :=
  List.flatMap_cons

def startTag (name : Text) (attributes : List (Text × Text)) : Text :=
  '<' :: name ++ attributeList attributes ++ ['>']

def endTag (name : Text) : Text := '<' :: '/' :: name ++ ['>']

structure PlainNameChar (c : Char) : Prop where
  lower : c.toLower = c
  notSpace : isSpace c = false
  notSlash : c ≠ '/'
  notEnd : c ≠ '>'
  notEquals : c ≠ '='

theorem plainNameChar {c : Char} (valid : isNameChar c = true) : PlainNameChar c where
  lower := by
    unfold Char.toLower
    split
    next upper =>
      simp [isNameChar, Char.isLower, Char.isDigit, UInt32.le_iff_toNat_le, Char.ext_iff,
        UInt32.ext_iff] at upper valid
      omega
    next => rfl
  notSpace := by
    rw [Bool.eq_false_iff]
    intro isBlank
    simp only [isSpace, Bool.or_eq_true, beq_iff_eq] at isBlank
    rcases isBlank with ((rfl | rfl) | rfl) | rfl
    all_goals exact absurd valid (by decide)
  notSlash := by
    rintro rfl
    exact absurd valid (by decide)
  notEnd := by
    rintro rfl
    exact absurd valid (by decide)
  notEquals := by
    rintro rfl
    exact absurd valid (by decide)

theorem readAll_tagName (valid : ∀ c ∈ s, isNameChar c = true) (tag : Tag) :
    readAll (.tagName tag) s = ([], .tagName { tag with name := tag.name ++ s }) := by
  refine readAll_collect (fun name => .tagName { tag with name }) (isNameChar · = true) ?_ valid
    tag.name
  intro name c isChar
  have plain := plainNameChar isChar
  simp [read, readTagName, plain.notSpace, plain.notSlash, plain.notEnd, plain.lower]

theorem readAll_attributeName (valid : ∀ c ∈ s, isNameChar c = true) (tag : Tag) (name : Text) :
    readAll (.attributeName tag name) s = ([], .attributeName tag (name ++ s)) := by
  refine readAll_collect (.attributeName tag) (isNameChar · = true) ?_ valid name
  intro name c isChar
  have plain := plainNameChar isChar
  simp [read, readAttributeName, plain.notSpace, plain.notSlash, plain.notEnd, plain.notEquals,
    plain.lower]

theorem readAll_attributeValue {value : Text} (closed : '"' ∉ value) (tag : Tag) (name : Text) :
    readAll (.attributeValue '"' tag name []) value = ([], .attributeValue '"' tag name value) := by
  refine readAll_collect (.attributeValue '"' tag name) (· ≠ '"') ?_ ?_ []
  · intro value c differs
    exact if_neg differs
  · intro c member isQuote
    exact closed (isQuote ▸ member)

theorem exists_of_isName (valid : isName name = true) :
    ∃ c rest, name = c :: rest ∧ c.isLower = true ∧ isNameChar c = true ∧
      ∀ d ∈ rest, isNameChar d = true := by
  cases name with
  | nil => cases valid
  | cons c rest =>
    simp only [isName, List.head?_cons, Option.any_some, List.all_cons, Bool.and_eq_true,
      List.all_eq_true] at valid
    exact ⟨c, rest, rfl, valid.1, valid.2.1, valid.2.2⟩

/-- A state in which a tag may end or go on with an attribute. -/
structure Continues (state : State) (tag : Tag) : Prop where
  blank : read state ' ' = ([], .beforeAttributeName tag)
  ended : read state '>' = ([tag.token], .data)

theorem continues_tagName (tag : Tag) : Continues (.tagName tag) tag := ⟨rfl, rfl⟩

theorem continues_afterAttributeValue (tag : Tag) : Continues (.afterAttributeValue tag) tag :=
  ⟨rfl, rfl⟩

theorem readAll_attribute {tag : Tag} (continues : Continues state tag) (valid : isName name = true)
    (value : Text) :
    readAll state (' ' :: name ++ ('=' :: '"' :: (escapeMarkup value ++ ['"']))) =
      ([], .afterAttributeValue { tag with attributes := tag.attributes ++ [(name, value)] }) := by
  obtain ⟨c, rest, rfl, _, isChar, others⟩ := exists_of_isName valid
  have plain := plainNameChar isChar
  have first : read (.beforeAttributeName tag) c = ([], .attributeName tag [c]) := by
    simp [read, readBeforeAttributeName, plain.notSpace, plain.notSlash, plain.notEnd, plain.lower]
  have named := readAll_cons continues.blank
    (readAll_cons first (readAll_attributeName others tag [c]))
  have valued := readAll_attributeValue (not_mem_escapeMarkup (Or.inr (Or.inr rfl)) value) tag
    (c :: rest)
  have quoted : readAll (.attributeValue '"' tag (c :: rest) (escapeMarkup value)) ['"'] =
      ([], .afterAttributeValue (tag.add (c :: rest) (escapeMarkup value))) := rfl
  have equals : read (.attributeName tag (c :: rest)) '=' =
      ([], .beforeAttributeValue tag (c :: rest)) := rfl
  have opened : read (.beforeAttributeValue tag (c :: rest)) '"' =
      ([], .attributeValue '"' tag (c :: rest) []) := rfl
  have whole := readAll_append named
    (readAll_cons equals (readAll_cons opened (readAll_append valued quoted)))
  rw [Tag.add, decode_escapeMarkup] at whole
  exact whole

theorem readAll_attributeList {attributes : List (Text × Text)}
    (valid : ∀ pair ∈ attributes, isName pair.1 = true) {tag : Tag}
    (continues : Continues state tag) :
    readAll state (attributeList attributes ++ ['>']) =
      ([Tag.token { tag with attributes := tag.attributes ++ attributes }], .data) := by
  induction attributes generalizing state tag with
  | nil =>
    rw [List.append_nil]
    exact readAll_cons continues.ended rfl
  | cons pair others ih =>
    have first := readAll_attribute continues (valid pair List.mem_cons_self) pair.2
    have later := ih (fun other member => valid other (List.mem_cons_of_mem _ member))
      (continues_afterAttributeValue { tag with attributes := tag.attributes ++ [pair] })
    simp only [List.append_assoc, List.singleton_append] at later
    rw [attributeList_cons, List.append_assoc]
    exact readAll_append first later

theorem readAll_startTag (valid : isName name = true) {attributes : List (Text × Text)}
    (validAttributes : ∀ pair ∈ attributes, isName pair.1 = true) :
    readAll .data (startTag name attributes) = ([.start name attributes], .data) := by
  obtain ⟨c, rest, rfl, isLower, isChar, others⟩ := exists_of_isName valid
  have plain := plainNameChar isChar
  have isAlpha : c.isAlpha = true := by
    rw [Char.isAlpha, isLower, Bool.or_true]
  have opened : read .data '<' = ([], .tagOpen) := rfl
  have first : read .tagOpen c = ([], .tagName { closing := false, name := [c] }) := by
    have notMark : ¬(c = '!' ∨ c = '?') := by
      rintro (rfl | rfl)
      · exact absurd isChar (by decide)
      · exact absurd isChar (by decide)
    simp [read, readTagOpen, notMark, plain.notSlash, isAlpha, plain.lower]
  have named := readAll_cons opened (readAll_cons first (readAll_tagName others _))
  have listed := readAll_attributeList validAttributes
    (continues_tagName { closing := false, name := [c] ++ rest })
  have whole := readAll_append named listed
  rw [startTag, List.append_assoc]
  exact whole

theorem readAll_endTag (valid : isName name = true) :
    readAll .data (endTag name) = ([.stop name], .data) := by
  obtain ⟨c, rest, rfl, isLower, isChar, others⟩ := exists_of_isName valid
  have plain := plainNameChar isChar
  have isAlpha : c.isAlpha = true := by
    rw [Char.isAlpha, isLower, Bool.or_true]
  have opened : read .data '<' = ([], .tagOpen) := rfl
  have closing : read .tagOpen '/' = ([], .endTagOpen) := rfl
  have first : read .endTagOpen c = ([], .tagName { closing := true, name := [c] }) := by
    simp [read, readEndTagOpen, isAlpha, plain.lower]
  have named := readAll_cons opened
    (readAll_cons closing (readAll_cons first (readAll_tagName others _)))
  have ended : readAll (.tagName { closing := true, name := [c] ++ rest }) ['>'] =
      ([.stop ([c] ++ rest)], .data) := rfl
  exact readAll_append named ended

/-! ## Without the tags -/

def characters (tokens : List Token) : Text :=
  tokens.filterMap fun token =>
    match token with
    | .char c => some c
    | .start _ _ | .stop _ => none

theorem characters_append (first second : List Token) :
    characters (first ++ second) = characters first ++ characters second :=
  List.filterMap_append

theorem characters_map_char (s : Text) : characters (s.map .char) = s := by
  rw [characters, List.filterMap_map]
  exact List.filterMap_some

theorem state_of_read {c : Char}
    (isRead : read state c = (tokens, .data)) (notEnd : c ≠ '>') (unopened : .char '<' ∉ tokens) :
    state = .data := by
  cases state with
  | data => rfl
  | tagOpen =>
    simp only [read, readTagOpen] at isRead
    split_ifs at isRead
    · cases isRead
    · cases isRead
    · cases isRead
    · rw [← (Prod.mk.inj isRead).1] at unopened
      exact absurd List.mem_cons_self unopened
  | bogusComment =>
    simp only [read, notEnd, if_false] at isRead
    cases isRead
  | _ =>
    simp only [read, readEndTagOpen, readTagName, readBeforeAttributeName, readAttributeName,
      readAfterAttributeName, readBeforeAttributeValue, readAttributeValue, readUnquotedValue,
      readSelfClosing, finish, notEnd, if_false] at isRead
    split_ifs at isRead
    all_goals cases isRead

theorem state_of_readAll (isRead : readAll state s = (tokens, .data)) (notEnd : '>' ∉ s)
    (unopened : .char '<' ∉ tokens) : state = .data := by
  induction s generalizing state tokens with
  | nil => exact (Prod.mk.inj isRead).2
  | cons c rest ih =>
    obtain ⟨early, next, isFirst⟩ : ∃ early next, read state c = (early, next) := ⟨_, _, rfl⟩
    obtain ⟨later, last, isRest⟩ : ∃ later last, readAll next rest = (later, last) := ⟨_, _, rfl⟩
    rw [readAll_cons isFirst isRest] at isRead
    cases isRead
    rw [List.mem_append, not_or] at unopened
    have isData := ih isRest (List.not_mem_of_not_mem_cons notEnd) unopened.2
    subst isData
    exact state_of_read isFirst (Ne.symm (List.ne_of_not_mem_cons notEnd)) unopened.1

end Eeemail.Lib.Markup
