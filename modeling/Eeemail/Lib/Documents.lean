import Eeemail.Lib.Markup

/-! # The tree that markup spells

Tags and text are put together as the tree they literally spell: a start tag
opens an element unless its name is one of an empty element, the end tag of the
same name closes it, and characters between two tags are one text.  Markup that
is put together from escaped text and whole elements is read as a tree, and
whatever prints such trees the same way prints that markup again. -/

set_option autoImplicit false

namespace Eeemail.Lib.Documents

open Lib.Texts Lib.Html Lib.Markup

inductive Tree where
  | text (content : Text)
  | element (name : Text) (attributes : List (Text × Text)) (children : List Tree)

/-- An element whose end is not read yet, and the nodes before it. -/
structure Open where
  name : Text
  attributes : List (Text × Text)
  earlier : List Tree

/-- What is read so far: the open elements, the innermost first, the nodes of the
innermost one, and the characters since the last tag. -/
structure Reader where
  outer : List Open := []
  nodes : List Tree := []
  pending : Text := []

def settled (nodes : List Tree) (pending : Text) : List Tree :=
  if pending.isEmpty then nodes else nodes ++ [.text (decode pending)]

def Reader.settle (reader : Reader) : List Tree := settled reader.nodes reader.pending

/-- Reads one token.  An end tag has to close the innermost element. -/
def Reader.step (isVoid : Text → Bool) (reader : Reader) : Token → Option Reader
  | .char c => some { reader with pending := reader.pending ++ [c] }
  | .start name attributes =>
    if isVoid name then
      some { reader with
        nodes := reader.settle ++ [.element name attributes []]
        pending := [] }
    else some { outer := ⟨name, attributes, reader.settle⟩ :: reader.outer }
  | .stop name =>
    match reader.outer with
    | [] => none
    | opened :: outer =>
      if opened.name = name then
        some
          { outer
            nodes := opened.earlier ++ [.element name opened.attributes reader.settle] }
      else none

/-- The trees that tokens spell, if every element is closed. -/
def spelled (isVoid : Text → Bool) (tokens : List Token) : Option (List Tree) :=
  match tokens.foldlM (Reader.step isVoid) {} with
  | some reader => if reader.outer.isEmpty then some reader.settle else none
  | none => none

def document (isVoid : Text → Bool) (html : Text) : Option (List Tree) :=
  (lex html).bind (spelled isVoid)

section

variable {isVoid : Text → Bool} {permits : Text → List (Text × Text) → Prop}

/-- Markup of escaped text, empty elements and permitted elements. -/
inductive Spelling (isVoid : Text → Bool) (permits : Text → List (Text × Text) → Prop) :
    Text → Prop where
  | text (content : Text) : Spelling isVoid permits (escapeMarkup content)
  | void {name : Text} (valid : isName name = true) (empty : isVoid name = true) :
      Spelling isVoid permits (startTag name [])
  | element {name inner : Text} {attributes : List (Text × Text)} (valid : isName name = true)
      (filled : isVoid name = false) (validNames : ∀ pair ∈ attributes, isName pair.1 = true)
      (permitted : permits name attributes) (isInner : Spelling isVoid permits inner) :
      Spelling isVoid permits (startTag name attributes ++ inner ++ endTag name)
  | append {first second : Text} (isFirst : Spelling isVoid permits first)
      (isSecond : Spelling isVoid permits second) : Spelling isVoid permits (first ++ second)

/-- Printing trees as such markup. -/
structure Prints (isVoid : Text → Bool) (permits : Text → List (Text × Text) → Prop)
    (print : List Tree → Text) : Prop where
  nil : print [] = []
  append : ∀ first second, print (first ++ second) = print first ++ print second
  text : ∀ content, print [.text content] = escapeMarkup content
  void : ∀ name, isVoid name = true → isName name = true →
    print [.element name [] []] = startTag name []
  element : ∀ name attributes children, permits name attributes →
    print [.element name attributes children] =
      startTag name attributes ++ print children ++ endTag name

/-! ## Reading what was printed -/

def IsEscaped (pending : Text) : Prop := ∃ content, pending = escapeMarkup content

variable {print : List Tree → Text}

theorem Prints.settled (prints : Prints isVoid permits print) {nodes : List Tree} {pending : Text}
    (escaped : IsEscaped pending) : print (settled nodes pending) = print nodes ++ pending := by
  obtain ⟨content, rfl⟩ := escaped
  unfold Documents.settled
  split
  next empty => rw [List.isEmpty_iff.mp empty, List.append_nil]
  next => rw [prints.append, prints.text, decode_escapeMarkup]

/-- Reading markup adds to the nodes of the innermost element what prints as that
markup, and leaves the elements around it open. -/
def Adds (isVoid : Text → Bool) (print : List Tree → Text) (html : Text) : Prop :=
  ∃ tokens, readAll .data html = (tokens, .data) ∧
    ∀ outer nodes pending, IsEscaped pending →
      ∃ nodes' pending', tokens.foldlM (Reader.step isVoid) ⟨outer, nodes, pending⟩ =
          some ⟨outer, nodes', pending'⟩ ∧
        IsEscaped pending' ∧ print nodes' ++ pending' = print nodes ++ pending ++ html

theorem foldlM_char (isVoid : Text → Bool) (s : Text) (outer : List Open) (nodes : List Tree)
    (pending : Text) :
    (s.map Token.char).foldlM (Reader.step isVoid) ⟨outer, nodes, pending⟩ =
      some ⟨outer, nodes, pending ++ s⟩ := by
  induction s generalizing pending with
  | nil =>
    rw [List.append_nil]
    rfl
  | cons c rest ih =>
    have later := ih (pending ++ [c])
    rw [List.append_assoc, List.singleton_append] at later
    exact later

theorem adds_text (content : Text) : Adds isVoid print (escapeMarkup content) := by
  refine ⟨_, readAll_escapeMarkup content, fun outer nodes pending escaped => ?_⟩
  obtain ⟨earlier, rfl⟩ := escaped
  refine ⟨nodes, _, foldlM_char isVoid _ outer nodes _, ?_, ?_⟩
  · exact ⟨earlier ++ content, (escapeMarkup_append earlier content).symm⟩
  · rw [List.append_assoc]

theorem isEscaped_nil : IsEscaped [] := ⟨[], rfl⟩

section

variable (prints : Prints isVoid permits print)

include prints

theorem adds_void {name : Text} (valid : isName name = true) (empty : isVoid name = true) :
    Adds isVoid print (startTag name []) := by
  refine ⟨_, readAll_startTag valid (fun _ member => nomatch member),
    fun outer nodes pending escaped => ?_⟩
  refine ⟨settled nodes pending ++ [.element name [] []], [], ?_, isEscaped_nil, ?_⟩
  · rw [List.foldlM_cons, Reader.step, if_pos empty]
    rfl
  · rw [prints.append, prints.settled escaped, prints.void name empty valid, List.append_nil]

theorem adds_element {name inner : Text}
    {attributes : List (Text × Text)} (valid : isName name = true) (filled : isVoid name = false)
    (validNames : ∀ pair ∈ attributes, isName pair.1 = true)
    (permitted : permits name attributes) (adds : Adds isVoid print inner) :
    Adds isVoid print (startTag name attributes ++ inner ++ endTag name) := by
  obtain ⟨tokens, isRead, reads⟩ := adds
  have opened := readAll_startTag valid validNames
  refine ⟨_, readAll_append (readAll_append opened isRead) (readAll_endTag valid),
    fun outer nodes pending escaped => ?_⟩
  obtain ⟨children, rest, innerRun, restEscaped, innerPrints⟩ :=
    reads (⟨name, attributes, settled nodes pending⟩ :: outer) [] [] isEscaped_nil
  rw [prints.nil, List.nil_append, List.nil_append] at innerPrints
  refine ⟨settled nodes pending ++ [.element name attributes (settled children rest)], [], ?_,
    isEscaped_nil, ?_⟩
  · have first : Reader.step isVoid ⟨outer, nodes, pending⟩ (.start name attributes) =
        some ⟨⟨name, attributes, settled nodes pending⟩ :: outer, [], []⟩ := by
      rw [Reader.step, if_neg (by simp [filled])]
      rfl
    have last : Reader.step isVoid
        ⟨⟨name, attributes, settled nodes pending⟩ :: outer, children, rest⟩ (.stop name) =
        some ⟨outer, settled nodes pending ++ [.element name attributes (settled children rest)],
          []⟩ := if_pos rfl
    rw [List.singleton_append, List.cons_append, List.foldlM_cons, first]
    change (tokens ++ [Token.stop name]).foldlM (Reader.step isVoid) _ = _
    rw [List.foldlM_append, innerRun]
    change [Token.stop name].foldlM (Reader.step isVoid) _ = _
    rw [List.foldlM_cons, last]
    rfl
  · rw [prints.append, prints.settled escaped, prints.element name attributes _ permitted,
      prints.settled restEscaped, innerPrints, List.append_nil]

omit prints in
theorem adds_append {first second : Text} (isFirst : Adds isVoid print first)
    (isSecond : Adds isVoid print second) : Adds isVoid print (first ++ second) := by
  obtain ⟨early, readFirst, runFirst⟩ := isFirst
  obtain ⟨later, readSecond, runSecond⟩ := isSecond
  refine ⟨early ++ later, readAll_append readFirst readSecond,
    fun outer nodes pending escaped => ?_⟩
  obtain ⟨between, rest, firstRun, restEscaped, firstPrints⟩ := runFirst outer nodes pending escaped
  obtain ⟨last, final, secondRun, finalEscaped, secondPrints⟩ :=
    runSecond outer between rest restEscaped
  refine ⟨last, final, ?_, finalEscaped, ?_⟩
  · rw [List.foldlM_append, firstRun]
    exact secondRun
  · rw [secondPrints, firstPrints, List.append_assoc]

theorem Spelling.adds {html : Text}
    (spelling : Spelling isVoid permits html) : Adds isVoid print html := by
  induction spelling with
  | text content => exact adds_text content
  | void valid empty => exact adds_void prints valid empty
  | element valid filled validNames permitted _ ih =>
    exact adds_element prints valid filled validNames permitted ih
  | append _ _ first second => exact adds_append first second

theorem Spelling.document {html : Text} (spelling : Spelling isVoid permits html) :
    (document isVoid html).map print = some html := by
  obtain ⟨tokens, isRead, reads⟩ := spelling.adds prints
  obtain ⟨nodes, pending, run, escaped, printed⟩ := reads [] [] [] isEscaped_nil
  have isLexed : lex html = some tokens := by rw [lex, isRead]
  have isSpelled : spelled isVoid tokens = some (settled nodes pending) := by
    unfold spelled
    rw [run]
    rfl
  rw [Documents.document, isLexed, Option.bind_some, isSpelled, Option.map_some,
    prints.settled escaped, printed, prints.nil]
  rfl

end

end

end Eeemail.Lib.Documents
