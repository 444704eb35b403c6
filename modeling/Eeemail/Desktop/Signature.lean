import Eeemail.Policy
import Eeemail.Desktop.Fields

/-! # The signature in a plain body

`desktop/src/views/composer.ts` puts the signature after a separator line and
above a trailing quote, and takes it out again; `sendopts::split_signature`
finds it once more when the message is sent.  All three look for their line from
the end of the body. -/

set_option autoImplicit false

namespace Eeemail.Desktop.Signature

open Lib.Texts Policy Desktop.Fields

variable {line result : Text} {quote : List Text} {text : Text}

/-! ## Looking from the end -/

section Scans

variable {α : Type}

def lastIndexFrom (test : α → Bool) : List α → Option Nat
  | [] => none
  | item :: earlier => if test item then some earlier.length else lastIndexFrom test earlier

def lastIndex (items : List α) (test : α → Bool) : Option Nat := lastIndexFrom test items.reverse

variable {test : α → Bool} {after items : List α} {item : α}

theorem lastIndexFrom_skip {skipped : List α} (none : ∀ item ∈ skipped, test item = false)
    (earlier : List α) : lastIndexFrom test (skipped ++ earlier) = lastIndexFrom test earlier := by
  induction skipped with
  | nil => rfl
  | cons item others ih =>
    rw [List.cons_append, lastIndexFrom, none item List.mem_cons_self, if_neg Bool.false_ne_true]
    exact ih fun other member => none other (List.mem_cons_of_mem _ member)

theorem lastIndex_append_of_none (none : ∀ item ∈ after, test item = false)
    (before : List α) : lastIndex (before ++ after) test = lastIndex before test := by
  rw [lastIndex, List.reverse_append, lastIndexFrom_skip, lastIndex]
  exact fun item member => none item (List.mem_reverse.mp member)

theorem lastIndex_eq_none (none : ∀ item ∈ items, test item = false) :
    lastIndex items test = Option.none :=
  lastIndex_append_of_none none []

theorem lastIndex_append_cons (found : test item = true)
    (none : ∀ other ∈ after, test other = false) (before : List α) :
    lastIndex (before ++ item :: after) test = some before.length := by
  rw [List.append_cons, lastIndex_append_of_none none, lastIndex, List.reverse_append,
    List.reverse_singleton, List.singleton_append, lastIndexFrom, if_pos found,
    List.length_reverse]

theorem none_or_exists_last (items : List α) (test : α → Bool) :
    (∀ item ∈ items, test item = false) ∨
      ∃ before item after, items = before ++ item :: after ∧ test item = true ∧
        ∀ other ∈ after, test other = false := by
  induction items with
  | nil => exact Or.inl fun _ member => nomatch member
  | cons first others ih =>
    rcases ih with none | ⟨before, item, after, rfl, found, none⟩
    · cases passes : test first with
      | true => exact Or.inr ⟨[], first, others, rfl, passes, none⟩
      | false =>
        refine Or.inl fun item member => ?_
        rcases List.mem_cons.mp member with rfl | later
        · exact passes
        · exact none item later
    · exact Or.inr ⟨first :: before, item, after, rfl, found, none⟩

theorem le_of_lastIndex {before : List α} {index : Nat} (found : test item = true)
    (isLast : lastIndex (before ++ item :: after) test = some index) : before.length ≤ index := by
  rcases none_or_exists_last after test with none | ⟨early, later, late, rfl, passes, none⟩
  · rw [lastIndex_append_cons found none] at isLast
    exact (Option.some.inj isLast).le
  · rw [← List.cons_append, ← List.append_assoc, lastIndex_append_cons passes none] at isLast
    rw [← Option.some.inj isLast, List.length_append]
    exact Nat.le_add_right _ _

theorem lastIndex_lt {index : Nat} (isLast : lastIndex items test = some index) :
    index < items.length := by
  rcases none_or_exists_last items test with none | ⟨before, item, after, rfl, found, none⟩
  · rw [lastIndex_eq_none none] at isLast
    cases isLast
  · rw [lastIndex_append_cons found none] at isLast
    rw [← Option.some.inj isLast, List.length_append, List.length_cons]
    omega

theorem passes_of_lastIndex {before : List α} (none : ∀ other ∈ after, test other = false)
    (isLast : lastIndex (before ++ item :: after) test = some before.length) :
    test item = true := by
  by_contra fails
  have skipped : ∀ other ∈ item :: after, test other = false := by
    intro other member
    rcases List.mem_cons.mp member with rfl | later
    · exact Bool.eq_false_iff.mpr fails
    · exact none other later
  rw [lastIndex_append_of_none skipped] at isLast
  exact absurd (lastIndex_lt isLast) (lt_irrefl _)

def quoteStartFrom (isQuote isBlank : α → Bool) (start : Nat) : List α → Nat
  | [] => start
  | item :: earlier =>
    if isQuote item then quoteStartFrom isQuote isBlank earlier.length earlier
    else if !isBlank item then start
    else quoteStartFrom isQuote isBlank start earlier

def quoteStart (items : List α) (isQuote isBlank : α → Bool) : Nat :=
  quoteStartFrom isQuote isBlank items.length items.reverse

variable {isQuote isBlank : α → Bool}

def EndsUnquoted (isQuote isBlank : α → Bool) (items : List α) : Prop :=
  ∀ item, items.reverse.find? (fun item => isQuote item || !isBlank item) = some item →
    isQuote item = false

theorem quoteStartFrom_le {start : Nat} (within : items.length ≤ start) :
    quoteStartFrom isQuote isBlank start items ≤ start := by
  induction items generalizing start with
  | nil => exact le_rfl
  | cons item earlier ih =>
    rw [List.length_cons] at within
    rw [quoteStartFrom]
    split_ifs
    · exact (ih le_rfl).trans (by omega)
    · exact le_rfl
    · exact ih (by omega)

theorem quoteStartFrom_eq_start {start : Nat} (within : items.length ≤ start) :
    quoteStartFrom isQuote isBlank start items = start ↔
      ∀ item, items.find? (fun item => isQuote item || !isBlank item) = some item →
        isQuote item = false := by
  induction items with
  | nil => simp [quoteStartFrom]
  | cons item earlier ih =>
    rw [List.length_cons] at within
    cases quoted : isQuote item with
    | true =>
      -- The scan goes on from the quote and never comes back to where it began.
      have early : quoteStartFrom isQuote isBlank earlier.length earlier ≤ earlier.length :=
        quoteStartFrom_le le_rfl
      simp only [quoteStartFrom, quoted, if_true, List.find?_cons, Bool.true_or]
      constructor
      · intro same
        omega
      · intro unquoted
        exact absurd (unquoted item rfl) (by simp [quoted])
    | false =>
      cases blank : isBlank item with
      | true => simpa [quoteStartFrom, quoted, blank] using ih (by omega)
      | false => simp [quoteStartFrom, quoted, blank]

theorem quoteStart_eq_length :
    quoteStart items isQuote isBlank = items.length ↔ EndsUnquoted isQuote isBlank items :=
  quoteStartFrom_eq_start (List.length_reverse).le

theorem quoteStartFrom_skip (start : Nat) {skipped : List α}
    (quiet : ∀ item ∈ skipped, isQuote item = true ∨ isBlank item = true) (earlier : List α) :
    ∃ next, quoteStartFrom isQuote isBlank start (skipped ++ earlier) =
      quoteStartFrom isQuote isBlank next earlier := by
  induction skipped generalizing start with
  | nil => exact ⟨start, rfl⟩
  | cons item others ih =>
    have later := fun other member => quiet other (List.mem_cons_of_mem item member)
    rw [List.cons_append, quoteStartFrom]
    cases quoted : isQuote item with
    | true => exact ih _ later
    | false =>
      have blank := (quiet item List.mem_cons_self).resolve_left (by simp [quoted])
      simpa [blank] using ih start later

theorem quoteStart_append_quote {quote : List α} (quoted : isQuote item = true)
    (quiet : ∀ other ∈ quote, isQuote other = true ∨ isBlank other = true) (above : List α) :
    quoteStart (above ++ item :: quote) isQuote isBlank = quoteStart above isQuote isBlank := by
  have backwards : ∀ other ∈ quote.reverse, isQuote other = true ∨ isBlank other = true :=
    fun other member => quiet other (List.mem_reverse.mp member)
  obtain ⟨next, skipped⟩ := quoteStartFrom_skip (above ++ item :: quote).length backwards
    (item :: above.reverse)
  rw [quoteStart, List.reverse_append, List.reverse_cons, List.append_assoc,
    List.singleton_append, skipped, quoteStartFrom, if_pos quoted, List.length_reverse, quoteStart]

theorem EndsUnquoted.append {above below : List α} (solid : isBlank item = false)
    (unquoted : isQuote item = false) (ends : EndsUnquoted isQuote isBlank below) :
    EndsUnquoted isQuote isBlank (above ++ item :: below) := by
  intro other found
  rw [List.reverse_append, List.reverse_cons, List.append_assoc, List.find?_append] at found
  cases within : below.reverse.find? fun item => isQuote item || !isBlank item with
  | some last =>
    rw [within, Option.some_or] at found
    exact Option.some.inj found ▸ ends last within
  | none =>
    rw [within, Option.none_or, List.singleton_append,
      List.find?_cons_of_pos (by simp [solid])] at found
    exact Option.some.inj found ▸ unquoted

theorem EndsUnquoted.append_blanks {above blanks : List α}
    (blank : ∀ item ∈ blanks, isBlank item = true ∧ isQuote item = false)
    (ends : EndsUnquoted isQuote isBlank above) :
    EndsUnquoted isQuote isBlank (above ++ blanks) := by
  have skipped : blanks.reverse.find? (fun item => isQuote item || !isBlank item) = none := by
    refine List.find?_eq_none.mpr fun item member => ?_
    obtain ⟨isBlank, unquoted⟩ := blank item (List.mem_reverse.mp member)
    simp [isBlank, unquoted]
  intro other found
  rw [List.reverse_append, List.find?_append, skipped, Option.none_or] at found
  exact ends other found

/-- A list, taken apart where its trailing quote starts. -/
structure QuotedAt (isQuote isBlank : α → Bool) (above quote : List α) : Prop where
  ends : EndsUnquoted isQuote isBlank above
  quiet : ∀ item ∈ quote, isQuote item = true ∨ isBlank item = true
  starts : ∀ item, quote.head? = some item → isQuote item = true

theorem EndsUnquoted.quotedAt (ends : EndsUnquoted isQuote isBlank items) :
    QuotedAt isQuote isBlank items [] :=
  ⟨ends, fun _ member => (nomatch member), fun _ head => (nomatch head)⟩

theorem endsUnquoted_nil : EndsUnquoted isQuote isBlank [] := fun _ found => nomatch found

theorem QuotedAt.quoteStart_eq {above quote : List α}
    (apart : QuotedAt isQuote isBlank above quote) :
    quoteStart (above ++ quote) isQuote isBlank = above.length := by
  cases quote with
  | nil =>
    rw [List.append_nil]
    exact quoteStart_eq_length.mpr apart.ends
  | cons first others =>
    rw [quoteStart_append_quote (apart.starts first rfl)
      fun other member => apart.quiet other (List.mem_cons_of_mem _ member)]
    exact quoteStart_eq_length.mpr apart.ends

theorem exists_quotedAt (isQuote isBlank : α → Bool) (items : List α) :
    ∃ above quote, items = above ++ quote ∧ QuotedAt isQuote isBlank above quote := by
  induction items using List.reverseRecOn with
  | nil => exact ⟨[], [], rfl, endsUnquoted_nil.quotedAt⟩
  | append_singleton items item ih =>
    obtain ⟨above, quote, rfl, apart⟩ := ih
    have extended (quiet : isQuote item = true ∨ isBlank item = true) :
        ∀ other ∈ quote ++ [item], isQuote other = true ∨ isBlank other = true := by
      intro other member
      rcases List.mem_append.mp member with early | isItem
      · exact apart.quiet other early
      · rw [List.mem_singleton.mp isItem]
        exact quiet
    cases quoted : isQuote item with
    | true =>
      refine ⟨above, quote ++ [item], List.append_assoc .., apart.ends,
        extended (Or.inl quoted), ?_⟩
      intro other head
      cases quote with
      | nil => exact Option.some.inj head ▸ quoted
      | cons first others => exact apart.starts other head
    | false =>
      cases blank : isBlank item with
      | false =>
        refine ⟨above ++ quote ++ [item], [], (List.append_nil _).symm, ?_⟩
        exact (endsUnquoted_nil.append blank quoted).quotedAt
      | true =>
        cases quote with
        | nil =>
          refine ⟨above ++ [] ++ [item], [], (List.append_nil _).symm, ?_⟩
          rw [List.append_nil]
          refine (apart.ends.append_blanks fun other member => ?_).quotedAt
          rw [List.mem_singleton.mp member]
          exact ⟨blank, quoted⟩
        | cons first others =>
          exact ⟨above, first :: others ++ [item], List.append_assoc .., apart.ends,
            extended (Or.inr blank), apart.starts⟩

end Scans

/-! ## Lines -/

def separator : Text := "-- ".toList

def isSeparator (text : Text) : Bool :=
  jsTrim (text.map fun c => if c = '\xa0' then ' ' else c) == "--".toList

def isQuoteLine (line : Text) : Bool := startsWith ['>'] line

def isBlankLine (line : Text) : Bool := (jsTrim line).isEmpty

def popBlankFrom : List Text → List Text
  | last :: line :: earlier =>
    if isBlankLine last then popBlankFrom (line :: earlier) else last :: line :: earlier
  | few => few

def popBlank (lines : List Text) : List Text := (popBlankFrom lines.reverse).reverse

def atLeastOne (lines : List Text) : List Text := if lines.isEmpty then [[]] else lines

def spaced (after : List Text) : List Text := if after.isEmpty then [] else [] :: after

def signPlain (text signature : Text) : Text :=
  let lines := split '\n' text
  let start := quoteStart lines isQuoteLine isBlankLine
  let before := atLeastOne (popBlank (lines.take start))
  let after := lines.drop start
  join ['\n'] (before ++ [[], separator] ++ split '\n' signature ++ spaced after)

def separatorIn (lines : List Text) : Option Nat :=
  lastIndex (lines.take (quoteStart lines isQuoteLine isBlankLine)) isSeparator

def unsignPlain (text : Text) : Option Text :=
  let lines := split '\n' text
  let start := quoteStart lines isQuoteLine isBlankLine
  match separatorIn lines with
  | none => none
  | some sep =>
    let before := popBlank (lines.take sep)
    let after := lines.drop start
    some (join ['\n'] (before ++ spaced after))

example : signPlain "hi\n> a".toList "Joe".toList = "hi\n\n-- \nJoe\n\n> a".toList := by decide
example : unsignPlain "hi\n\n-- \nJoe\n\n> a".toList = some "hi\n\n> a".toList := by decide

/-! ## Kinds of lines -/

theorem isSeparator_iff : isSeparator line = true ↔ jsTrim line = "--".toList := by
  have keeps : ∀ c, isJsSpace (if c = '\xa0' then ' ' else c) = isJsSpace c := by
    intro c
    split_ifs with isNbsp
    · subst isNbsp
      decide
    · rfl
  rw [isSeparator, beq_iff_eq, jsTrim, trimBy_map_of_blank isJsSpace _ keeps, ← jsTrim]
  constructor
  · intro same
    obtain ⟨first, rest, isCons, dash, others⟩ := List.map_eq_cons_iff.mp same
    obtain ⟨second, last, isPair, dash', nothing⟩ := List.map_eq_cons_iff.mp others
    have plain : ∀ c : Char, (if c = '\xa0' then ' ' else c) = '-' → c = '-' := by
      intro c isDash
      split_ifs at isDash
      · exact absurd isDash (by decide)
      · exact isDash
    rw [isCons, isPair, List.map_eq_nil_iff.mp nothing, plain first dash, plain second dash']
    rfl
  · intro same
    rw [same]
    decide

theorem isBlankLine_iff : isBlankLine line = true ↔ jsTrim line = [] :=
  List.isEmpty_iff

theorem solid_of_isSeparator (marks : isSeparator line = true) : isBlankLine line = false := by
  rw [Bool.eq_false_iff, ne_eq, isBlankLine_iff, isSeparator_iff.mp marks]
  decide

theorem exists_of_isQuoteLine (quoted : isQuoteLine line = true) :
    ∃ back, jsTrim line = '>' :: back := by
  obtain ⟨rest, rfl⟩ : ∃ rest, line = '>' :: rest := by
    obtain ⟨rest, isCons⟩ := List.isPrefixOf_iff_prefix.mp quoted
    exact ⟨rest, isCons.symm⟩
  have starts : trimStartBy isJsSpace ('>' :: rest) = '>' :: rest :=
    trimStartBy_eq_self _ fun c head => Option.some.inj head ▸ by decide
  obtain ⟨back, isWhole, blanks⟩ := exists_trimEndBy isJsSpace ('>' :: rest)
  rw [jsTrim, trimBy, starts]
  cases front : trimEndBy isJsSpace ('>' :: rest) with
  | nil =>
    rw [front, List.nil_append] at isWhole
    exact absurd (blanks '>' (isWhole ▸ List.mem_cons_self)) (by decide)
  | cons c others =>
    rw [front, List.cons_append] at isWhole
    exact ⟨others, by rw [(List.cons.inj isWhole).1]⟩

theorem solid_of_isQuoteLine (quoted : isQuoteLine line = true) : isBlankLine line = false := by
  obtain ⟨back, trimmed⟩ := exists_of_isQuoteLine quoted
  rw [Bool.eq_false_iff, ne_eq, isBlankLine_iff, trimmed]
  exact List.cons_ne_nil _ _

theorem unquoted_of_isBlankLine (blank : isBlankLine line = true) : isQuoteLine line = false := by
  rw [Bool.eq_false_iff]
  intro quoted
  exact absurd blank (by simp [solid_of_isQuoteLine quoted])

theorem unquoted_of_isSeparator (marks : isSeparator line = true) : isQuoteLine line = false := by
  rw [Bool.eq_false_iff]
  intro quoted
  obtain ⟨back, trimmed⟩ := exists_of_isQuoteLine quoted
  rw [isSeparator_iff.mp marks] at trimmed
  exact absurd (List.cons.inj trimmed).1 (by decide)

theorem QuotedAt.unmarked {above : List Text}
    (apart : QuotedAt isQuoteLine isBlankLine above quote) :
    ∀ line ∈ quote, isSeparator line = false := by
  intro line member
  rw [Bool.eq_false_iff]
  intro marks
  rcases apart.quiet line member with quoted | blank
  · exact absurd quoted (by simp [unquoted_of_isSeparator marks])
  · exact absurd blank (by simp [solid_of_isSeparator marks])

theorem separatorIn_eq (lines : List Text) : separatorIn lines = lastIndex lines isSeparator := by
  obtain ⟨above, quote, rfl, apart⟩ := exists_quotedAt isQuoteLine isBlankLine lines
  rw [separatorIn, apart.quoteStart_eq, List.take_left, lastIndex_append_of_none apart.unmarked]

/-! ## Blank lines -/

theorem exists_popBlank (lines : List Text) :
    ∃ blanks, lines = popBlank lines ++ blanks ∧ ∀ line ∈ blanks, isBlankLine line = true := by
  have backwards : ∀ reversed : List Text, ∃ blanks, reversed = blanks ++ popBlankFrom reversed ∧
      ∀ line ∈ blanks, isBlankLine line = true := by
    intro reversed
    fun_induction popBlankFrom reversed with
    | case1 last line earlier blank ih =>
      obtain ⟨blanks, apart, all⟩ := ih
      refine ⟨last :: blanks, congrArg (last :: ·) apart, ?_⟩
      intro other member
      rcases List.mem_cons.mp member with rfl | later
      · exact blank
      · exact all other later
    | case2 => exact ⟨[], rfl, fun _ member => nomatch member⟩
    | case3 => exact ⟨[], rfl, fun _ member => nomatch member⟩
  obtain ⟨blanks, apart, all⟩ := backwards lines.reverse
  refine ⟨blanks.reverse, ?_, fun line member => all line (List.mem_reverse.mp member)⟩
  rw [popBlank, ← List.reverse_append]
  exact List.reverse_eq_iff.mp apart

theorem popBlank_append_blank {lines : List Text} (some : lines ≠ [])
    (blank : isBlankLine line = true) : popBlank (lines ++ [line]) = popBlank lines := by
  obtain ⟨last, earlier, reversed⟩ : ∃ last earlier, lines.reverse = last :: earlier :=
    List.exists_cons_of_ne_nil (by simpa using some)
  rw [popBlank, popBlank, List.reverse_append, List.reverse_singleton, List.singleton_append,
    reversed, popBlankFrom, if_pos blank]

theorem popBlank_popBlank (lines : List Text) : popBlank (popBlank lines) = popBlank lines := by
  have again : ∀ reversed : List Text,
      popBlankFrom (popBlankFrom reversed) = popBlankFrom reversed := by
    intro reversed
    fun_induction popBlankFrom reversed with
    | case1 last line earlier blank ih => exact ih
    | case2 last line earlier solid => rw [popBlankFrom, if_neg solid]
    | case3 few none =>
      rw [popBlankFrom]
      exact none
  rw [popBlank, popBlank, List.reverse_reverse, again]

theorem popBlank_atLeastOne (lines : List Text) :
    popBlank (atLeastOne (popBlank lines) ++ [[]]) = atLeastOne (popBlank lines) := by
  unfold atLeastOne
  split_ifs with none
  · decide
  · rw [popBlank_append_blank _ (by decide), popBlank_popBlank]
    simpa using none

theorem atLeastOne_ne_nil (lines : List Text) : atLeastOne lines ≠ [] := by
  unfold atLeastOne
  split_ifs with none
  · exact List.cons_ne_nil _ _
  · simpa using none

theorem exists_atLeastOne (lines : List Text) :
    ∃ blanks, atLeastOne lines = lines ++ blanks ∧ ∀ line ∈ blanks, isBlankLine line = true := by
  unfold atLeastOne
  split_ifs with none
  · rw [List.isEmpty_iff.mp none]
    exact ⟨[[]], rfl, by simp [show isBlankLine [] = true by decide]⟩
  · exact ⟨[], (List.append_nil _).symm, fun _ member => nomatch member⟩

theorem exists_spaced (quote : List Text) :
    ∃ blanks, spaced quote = blanks ++ quote ∧ ∀ line ∈ blanks, isBlankLine line = true := by
  unfold spaced
  split_ifs with none
  · rw [List.isEmpty_iff.mp none]
    exact ⟨[], rfl, fun _ member => nomatch member⟩
  · exact ⟨[[]], rfl, by simp [show isBlankLine [] = true by decide]⟩

theorem mem_of_mem_popBlank {lines : List Text} (member : line ∈ popBlank lines) :
    line ∈ lines := by
  obtain ⟨blanks, apart, _⟩ := exists_popBlank lines
  rw [apart]
  exact List.mem_append_left _ member

theorem mem_atLeastOne {lines : List Text} (member : line ∈ atLeastOne lines) :
    line = [] ∨ line ∈ lines := by
  unfold atLeastOne at member
  split_ifs at member
  · exact Or.inl (List.mem_singleton.mp member)
  · exact Or.inr member

theorem mem_spaced (member : line ∈ spaced quote) : line = [] ∨ line ∈ quote := by
  unfold spaced at member
  split_ifs at member
  · cases member
  · exact List.mem_cons.mp member

/-! ## Taking the signature out again -/

/-- The lines of the one text are those of the other, but for blank ones right
above the trailing quote. -/
def SameButBlanks (body result : Text) : Prop :=
  let lines := split '\n' body
  let start := quoteStart lines isQuoteLine isBlankLine
  ∃ above old new, lines.take start = above ++ old ∧
    split '\n' result = above ++ new ++ lines.drop start ∧
    (∀ line ∈ old, isBlankLine line = true) ∧ ∀ line ∈ new, isBlankLine line = true

def solid (lines : List Text) : List Text := lines.filter fun line => !isBlankLine line

theorem solid_append (first second : List Text) :
    solid (first ++ second) = solid first ++ solid second :=
  List.filter_append ..

theorem solid_of_blank {lines : List Text} (blank : ∀ line ∈ lines, isBlankLine line = true) :
    solid lines = [] := by
  refine List.filter_eq_nil_iff.mpr fun line member => ?_
  simp [blank line member]

theorem solid_popBlank (lines : List Text) : solid (popBlank lines) = solid lines := by
  obtain ⟨blanks, apart, blank⟩ := exists_popBlank lines
  conv_rhs => rw [apart, solid_append, solid_of_blank blank, List.append_nil]

theorem solid_atLeastOne (lines : List Text) : solid (atLeastOne lines) = solid lines := by
  obtain ⟨blanks, isWhole, blank⟩ := exists_atLeastOne lines
  rw [isWhole, solid_append, solid_of_blank blank, List.append_nil]

theorem solid_spaced (quote : List Text) : solid (spaced quote) = solid quote := by
  obtain ⟨blanks, isWhole, blank⟩ := exists_spaced quote
  rw [isWhole, solid_append, solid_of_blank blank, List.nil_append]

theorem solid_split_join {lines : List Text} (plain : ∀ line ∈ lines, '\n' ∉ line) :
    solid (split '\n' (join ['\n'] lines)) = solid lines := by
  cases lines with
  | nil => decide
  | cons line others => rw [split_join (List.cons_ne_nil _ _) plain]

theorem SameButBlanks.solid_eq {body : Text} (same : SameButBlanks body result) :
    solid (split '\n' result) = solid (split '\n' body) := by
  obtain ⟨above, old, new, before, after, blankOld, blankNew⟩ := same
  conv_rhs => rw [← List.take_append_drop (quoteStart (split '\n' body) isQuoteLine isBlankLine)
    (split '\n' body), before]
  rw [after]
  simp only [solid_append, solid_of_blank blankOld, solid_of_blank blankNew]

def signedLines (above signature quote : List Text) : List Text :=
  atLeastOne (popBlank above) ++ [[], separator] ++ signature ++ spaced quote

theorem plain_signedLines {above signature : List Text}
    (plainAbove : ∀ line ∈ above, '\n' ∉ line) (plainSignature : ∀ line ∈ signature, '\n' ∉ line)
    (plainQuote : ∀ line ∈ quote, '\n' ∉ line) :
    ∀ line ∈ signedLines above signature quote, '\n' ∉ line := by
  intro line member
  simp only [signedLines, List.mem_append] at member
  rcases member with ((isAbove | isSeparator) | isSignature) | isQuote
  · rcases mem_atLeastOne isAbove with rfl | popped
    · exact List.not_mem_nil
    · exact plainAbove line (mem_of_mem_popBlank popped)
  · have plain : [[], separator].all (fun line => !line.contains '\n') = true := by decide
    simpa using List.all_eq_true.mp plain line isSeparator
  · exact plainSignature line isSignature
  · rcases mem_spaced isQuote with rfl | later
    · exact List.not_mem_nil
    · exact plainQuote line later

theorem unsignPlain_eq {front : List Text}
    (lines : split '\n' text = front ++ quote)
    (apart : QuotedAt isQuoteLine isBlankLine front quote) :
    unsignPlain text = (lastIndex front isSeparator).map fun sep =>
      join ['\n'] (popBlank ((front ++ quote).take sep) ++ spaced quote) := by
  rw [unsignPlain, separatorIn, lines, apart.quoteStart_eq, List.take_left, List.drop_left]
  cases lastIndex front isSeparator with
  | none => rfl
  | some sep => rfl

theorem length_solid_unsign {mark : Text} {before rest : List Text}
    (lines : split '\n' text = before ++ mark :: rest ++ quote)
    (apart : QuotedAt isQuoteLine isBlankLine (before ++ mark :: rest) quote)
    (marks : isSeparator mark = true) (taken : unsignPlain text = some result) :
    (solid before).length + (solid quote).length ≤ (solid (split '\n' result)).length := by
  rw [unsignPlain_eq lines apart, Option.map_eq_some_iff] at taken
  obtain ⟨sep, isLast, rfl⟩ := taken
  have below := le_of_lastIndex marks isLast
  have plain : ∀ line ∈ before ++ mark :: rest ++ quote, '\n' ∉ line := by
    rw [← lines]
    exact fun line => not_mem_of_mem_split
  have kept : (before ++ mark :: rest ++ quote).take sep =
      before ++ (mark :: rest ++ quote).take (sep - before.length) := by
    rw [List.append_assoc, List.take_append, List.take_of_length_le below]
  rw [solid_split_join, solid_append, solid_popBlank, solid_spaced, kept, solid_append]
  · simp only [List.length_append]
    omega
  · intro line member
    rcases List.mem_append.mp member with isAbove | isQuote
    · exact plain line (List.mem_of_mem_take (mem_of_mem_popBlank isAbove))
    · rcases mem_spaced isQuote with rfl | later
      · exact List.not_mem_nil
      · exact plain line (List.mem_append_right _ later)

section Signed

variable {body : Text} {above quote : List Text} (lines : split '\n' body = above ++ quote)
  (apart : QuotedAt isQuoteLine isBlankLine above quote) (signature : Text)

include lines apart

theorem split_signPlain :
    split '\n' (signPlain body signature) = signedLines above (split '\n' signature) quote := by
  have plain : ∀ line ∈ above ++ quote, '\n' ∉ line := by
    rw [← lines]
    exact fun line => not_mem_of_mem_split
  rw [signPlain, lines, apart.quoteStart_eq, List.take_left, List.drop_left, ← signedLines]
  refine split_join ?_ (plain_signedLines ?_ (fun line => not_mem_of_mem_split) ?_)
  · simp [signedLines]
  · exact fun line member => plain line (List.mem_append_left _ member)
  · exact fun line member => plain line (List.mem_append_right _ member)

omit lines in
theorem quotedAt_signed {gap signature : List Text} (blank : ∀ line ∈ gap, isBlankLine line = true)
    (ends : EndsUnquoted isQuoteLine isBlankLine signature) :
    QuotedAt isQuoteLine isBlankLine
      (atLeastOne (popBlank above) ++ [[]] ++ separator :: (signature ++ gap)) quote := by
  refine ⟨EndsUnquoted.append (by decide) (by decide) ?_, apart.quiet, apart.starts⟩
  exact ends.append_blanks fun line member =>
    ⟨blank line member, unquoted_of_isBlankLine (blank line member)⟩

theorem unsign_sign_of_plain (unmarked : ∀ line ∈ split '\n' signature, isSeparator line = false)
    (ends : EndsUnquoted isQuoteLine isBlankLine (split '\n' signature)) :
    unsignPlain (signPlain body signature) =
      some (join ['\n'] (atLeastOne (popBlank above) ++ spaced quote)) := by
  obtain ⟨gap, isSpaced, blank⟩ := exists_spaced quote
  have signed : split '\n' (signPlain body signature) =
      atLeastOne (popBlank above) ++ [[]] ++
        separator :: (split '\n' signature ++ gap) ++ quote := by
    rw [split_signPlain lines apart, signedLines, isSpaced]
    simp only [List.append_assoc, List.cons_append, List.nil_append]
  have none : ∀ line ∈ split '\n' signature ++ gap, isSeparator line = false := by
    intro line member
    rcases List.mem_append.mp member with isSignature | isGap
    · exact unmarked line isSignature
    · rw [Bool.eq_false_iff]
      intro marks
      exact absurd (blank line isGap) (by simp [solid_of_isSeparator marks])
  rw [unsignPlain_eq signed (quotedAt_signed apart blank ends),
    lastIndex_append_cons (by decide) none, Option.map_some, List.append_assoc, List.take_left,
    popBlank_atLeastOne]

theorem sameButBlanks_of_plain :
    SameButBlanks body (join ['\n'] (atLeastOne (popBlank above) ++ spaced quote)) := by
  obtain ⟨old, popped, blankOld⟩ := exists_popBlank above
  obtain ⟨early, isAtLeast, blankEarly⟩ := exists_atLeastOne (popBlank above)
  obtain ⟨late, isSpaced, blankLate⟩ := exists_spaced quote
  have plain : ∀ line ∈ above ++ quote, '\n' ∉ line := by
    rw [← lines]
    exact fun line => not_mem_of_mem_split
  have written : split '\n' (join ['\n'] (atLeastOne (popBlank above) ++ spaced quote)) =
      atLeastOne (popBlank above) ++ spaced quote := by
    refine split_join ?_ fun line member => ?_
    · exact fun isNil => atLeastOne_ne_nil _ (List.append_eq_nil_iff.mp isNil).1
    · rcases List.mem_append.mp member with isAbove | isQuote
      · rcases mem_atLeastOne isAbove with rfl | later
        · exact List.not_mem_nil
        · exact plain line (List.mem_append_left _ (mem_of_mem_popBlank later))
      · rcases mem_spaced isQuote with rfl | later
        · exact List.not_mem_nil
        · exact plain line (List.mem_append_right _ later)
  simp only [SameButBlanks, lines, apart.quoteStart_eq, List.take_left, List.drop_left]
  refine ⟨popBlank above, old, early ++ late, popped, ?_, blankOld, ?_⟩
  · rw [written, isAtLeast, isSpaced]
    simp only [List.append_assoc]
  · intro line member
    rcases List.mem_append.mp member with isEarly | isLate
    · exact blankEarly line isEarly
    · exact blankLate line isLate

theorem unmarked_of_same (taken : unsignPlain (signPlain body signature) = some result)
    (same : SameButBlanks body result)
    (ends : EndsUnquoted isQuoteLine isBlankLine (split '\n' signature)) :
    ∀ line ∈ split '\n' signature, isSeparator line = false := by
  rcases none_or_exists_last (split '\n' signature) isSeparator with
    none | ⟨early, mark, late, isWhole, marks, _⟩
  · exact none
  obtain ⟨gap, isSpaced, blank⟩ := exists_spaced quote
  have signed : split '\n' (signPlain body signature) =
      atLeastOne (popBlank above) ++ [[]] ++ separator :: early ++
        mark :: (late ++ gap) ++ quote := by
    rw [split_signPlain lines apart, signedLines, isSpaced, isWhole]
    simp only [List.append_assoc, List.cons_append, List.nil_append]
  have regrouped : atLeastOne (popBlank above) ++ [[]] ++
    separator :: (split '\n' signature ++ gap) =
      atLeastOne (popBlank above) ++ [[]] ++ separator :: early ++ mark :: (late ++ gap) := by
    rw [isWhole]
    simp only [List.append_assoc, List.cons_append]
  have quoted := quotedAt_signed apart blank ends
  rw [regrouped] at quoted
  -- The first separator line is above the one that is found.
  have more := length_solid_unsign signed quoted marks taken
  have isSolid : solid (separator :: early) = separator :: solid early := rfl
  rw [same.solid_eq, lines, solid_append, solid_append, solid_append, isSolid, solid_atLeastOne,
    solid_popBlank] at more
  simp only [List.length_append, List.length_cons] at more
  omega

theorem endsUnquoted_of_same (taken : unsignPlain (signPlain body signature) = some result)
    (same : SameButBlanks body result) :
    EndsUnquoted isQuoteLine isBlankLine (split '\n' signature) := by
  obtain ⟨kept, motto, isWhole, signatureApart⟩ :=
    exists_quotedAt isQuoteLine isBlankLine (split '\n' signature)
  cases motto with
  | nil =>
    rw [isWhole, List.append_nil]
    exact signatureApart.ends
  | cons first others =>
    have quoted := signatureApart.starts first rfl
    have signed : split '\n' (signPlain body signature) =
        atLeastOne (popBlank above) ++ [[]] ++ separator :: kept ++
          (first :: others ++ spaced quote) := by
      rw [split_signPlain lines apart, signedLines, isWhole]
      simp only [List.append_assoc, List.cons_append, List.nil_append]
    have quotedBelow : QuotedAt isQuoteLine isBlankLine
        (atLeastOne (popBlank above) ++ [[]] ++ separator :: kept)
        (first :: others ++ spaced quote) := by
      refine ⟨signatureApart.ends.append (by decide) (by decide), ?_, fun line head => ?_⟩
      · intro line member
        rcases List.mem_append.mp member with isMotto | isSpaced
        · exact signatureApart.quiet line isMotto
        · rcases mem_spaced isSpaced with rfl | isQuote
          · exact Or.inr (by decide)
          · exact apart.quiet line isQuote
      · exact Option.some.inj head ▸ quoted
    -- The last lines of the signature are taken for the quote.
    have more := length_solid_unsign signed quotedBelow (by decide) taken
    have isSolid : solid (first :: others) = first :: solid others := by
      rw [solid, List.filter_cons_of_pos (by simp [solid_of_isQuoteLine quoted]), solid]
    rw [same.solid_eq, lines, solid_append, solid_append, solid_append, isSolid,
      solid_atLeastOne, solid_popBlank, solid_spaced] at more
    simp only [List.length_append, List.length_cons] at more
    omega

end Signed

/-- A signature with no separator line, and whose last line with something on it is
no quote. -/
structure Removable (signature : Text) : Prop where
  unmarked : ∀ line ∈ split '\n' signature, isSeparator line = false
  unquoted : ∀ line, (split '\n' signature).reverse.find?
    (fun line => !isBlankLine line) = some line →
    isQuoteLine line = false

theorem endsUnquoted_iff {lines : List Text} :
    EndsUnquoted isQuoteLine isBlankLine lines ↔
      ∀ line, lines.reverse.find? (fun line => !isBlankLine line) = some line →
        isQuoteLine line = false := by
  have same : (fun line => isQuoteLine line || !isBlankLine line) =
      fun line => !isBlankLine line := by
    funext line
    cases quoted : isQuoteLine line with
    | true => rw [solid_of_isQuoteLine quoted, Bool.true_or, Bool.not_false]
    | false => rw [Bool.false_or]
  rw [EndsUnquoted, same]

theorem removing_undoes_inserting_iff (body signature : Text) :
    (∃ result, unsignPlain (signPlain body signature) = some result ∧ SameButBlanks body result) ↔
      Removable signature := by
  obtain ⟨above, quote, lines, apart⟩ :=
    exists_quotedAt isQuoteLine isBlankLine (split '\n' body)
  constructor
  · rintro ⟨result, taken, same⟩
    have ends := endsUnquoted_of_same lines apart signature taken same
    exact ⟨unmarked_of_same lines apart signature taken same ends, endsUnquoted_iff.mp ends⟩
  · rintro ⟨unmarked, unquoted⟩
    exact ⟨_, unsign_sign_of_plain lines apart signature unmarked (endsUnquoted_iff.mpr unquoted),
      sameButBlanks_of_plain lines apart⟩

/-- A line of dashes in the signature, and a quote at its end, keep a part of it in the body. -/
theorem marked_signature_stays :
    unsignPlain "hi".toList = none ∧
      unsignPlain (signPlain "hi".toList "Joe\n--\nACME".toList) = some "hi\n\n-- \nJoe".toList ∧
      ¬SameButBlanks "hi".toList "hi\n\n-- \nJoe".toList ∧
      unsignPlain (signPlain "hi".toList "Joe\n> motto".toList) = some "hi\n\n> motto".toList ∧
      ¬SameButBlanks "hi".toList "hi\n\n> motto".toList :=
  ⟨by decide, by decide, fun same => absurd same.solid_eq (by decide), by decide,
    fun same => absurd same.solid_eq (by decide)⟩

/-! ## The engine's separator -/

section Engine

variable [Unicode]

def isMark (line : Text) : Bool := trimEnd line == "--".toList

def markIn (lines : List Text) : Option Nat := lastIndex lines isMark

theorem splitSignature_of_marked {mark : Text} {above below : List Text}
    (lines : split '\n' text = above ++ mark :: below) (marks : isMark mark = true)
    (unmarked : ∀ line ∈ below, isMark line = false) :
    splitSignature text = (trimEnd (join ['\n'] above),
      if (trim (trimEnd (join ['\n'] below))).isEmpty then none
      else some (trimEnd (join ['\n'] below))) := by
  have found : ((above ++ mark :: below).any fun line => isMark line) = true :=
    List.any_eq_true.mpr ⟨mark, by simp, marks⟩
  have isBelow : ((above ++ mark :: below).reverse.takeWhile fun line => !isMark line).reverse =
      below := by
    have others : ∀ line ∈ below.reverse, (!isMark line) = true := by
      intro line member
      rw [unmarked line (List.mem_reverse.mp member)]
      rfl
    rw [List.reverse_append, List.reverse_cons, List.append_assoc, List.singleton_append,
      List.takeWhile_append_of_pos others, List.takeWhile_cons_of_neg (by simp [marks]),
      List.append_nil, List.reverse_reverse]
  have isAbove : (above ++ mark :: below).take
    ((above ++ mark :: below).length - below.length - 1) =
      above := by
    have length : (above ++ mark :: below).length - below.length - 1 = above.length := by
      simp only [List.length_append, List.length_cons]
      omega
    rw [length, List.take_left]
  simp only [isMark] at found isBelow
  simp only [splitSignature, lines]
  rw [if_pos found, isBelow, isAbove]

theorem splitSignature_of_unmarked (unmarked : ∀ line ∈ split '\n' text, isMark line = false) :
    splitSignature text = (text, none) := by
  refine if_neg ?_
  rw [List.any_eq_true]
  rintro ⟨line, member, marks⟩
  exact absurd marks (by simpa [isMark] using unmarked line member)

/-- What the body is split into makes it up again, up to white space at the end of a part. -/
def Rebuilds (text : Text) : Prop :=
  match markIn (split '\n' text) with
  | none => splitSignature text = (text, none)
  | some index =>
    ∃ above mark below, split '\n' text = above ++ mark :: below ∧ above.length = index ∧
      isMark mark = true ∧
      (∃ space, join ['\n'] above = (splitSignature text).1 ++ space ∧
        ∀ c ∈ space, Unicode.isWhitespace c = true) ∧
      ∃ space, join ['\n'] below = (splitSignature text).2.getD [] ++ space ∧
        ∀ c ∈ space, Unicode.isWhitespace c = true

theorem rebuilds (text : Text) : Rebuilds text := by
  rcases none_or_exists_last (split '\n' text) isMark with
    unmarked | ⟨above, mark, below, lines, marks, unmarked⟩
  · rw [Rebuilds, markIn, lastIndex_eq_none unmarked]
    exact splitSignature_of_unmarked unmarked
  · obtain ⟨front, isFront, blankFront⟩ :=
      exists_trimEndBy Unicode.isWhitespace (join ['\n'] above)
    obtain ⟨back, isBack, blankBack⟩ := exists_trimEndBy Unicode.isWhitespace (join ['\n'] below)
    rw [Rebuilds, markIn, lines, lastIndex_append_cons marks unmarked,
      splitSignature_of_marked lines marks unmarked]
    refine ⟨above, mark, below, rfl, rfl, marks, ⟨front, isFront, blankFront⟩, ?_⟩
    dsimp only
    split_ifs with isBlank
    · refine ⟨join ['\n'] below, rfl, fun c member => ?_⟩
      rw [isBack] at member
      rcases List.mem_append.mp member with early | late
      · exact blank_of_trimBy_eq_nil _ (List.isEmpty_iff.mp isBlank) c early
      · exact blankBack c late
    · exact ⟨back, isBack, blankBack⟩

end Engine

/-! ## Composer and engine -/

section

variable [AsciiUnicode]

/-- Two dashes at the start of the line, and behind them what both count as white space. -/
def PlainMark (line : Text) : Prop :=
  ∃ back, line = "--".toList ++ back ∧
    ∀ c ∈ back, isJsSpace c = true ∧ Unicode.isWhitespace c = true

theorem isMark_iff :
    isMark line = true ↔
      ∃ back, line = "--".toList ++ back ∧ ∀ c ∈ back, Unicode.isWhitespace c = true := by
  rw [isMark, beq_iff_eq]
  constructor
  · intro trimmed
    obtain ⟨back, isWhole, blank⟩ := exists_trimEndBy Unicode.isWhitespace line
    exact ⟨back, by rwa [← trimEnd, trimmed] at isWhole, blank⟩
  · rintro ⟨back, rfl, blank⟩
    have dash : Unicode.isWhitespace '-' = false := by
      rw [AsciiUnicode.isWhitespace_ascii '-' (by decide)]
      decide
    rw [trimEnd, trimEndBy_append_of_blank _ blank]
    exact trimEndBy_append_of_solid _ dash ['-']

theorem plainMark_iff : PlainMark line ↔ isSeparator line = true ∧ isMark line = true := by
  have starts (back : Text) : trimStartBy isJsSpace ("--".toList ++ back) = "--".toList ++ back :=
    trimStartBy_eq_self _ fun c head => Option.some.inj head ▸ by decide
  rw [isSeparator_iff, isMark_iff, jsTrim, trimBy]
  constructor
  · rintro ⟨back, rfl, blank⟩
    refine ⟨?_, back, rfl, fun c member => (blank c member).2⟩
    rw [starts, trimEndBy_append_of_blank _ fun c member => (blank c member).1]
    decide
  · rintro ⟨trimmed, back, rfl, blank⟩
    obtain ⟨spaces, isWhole, jsBlank⟩ := exists_trimEndBy isJsSpace ("--".toList ++ back)
    rw [starts] at trimmed
    rw [trimmed] at isWhole
    have same := List.append_cancel_left isWhole
    exact ⟨back, rfl, fun c member => ⟨jsBlank c (same ▸ member), blank c member⟩⟩

/-- The last line that either side takes for the separator has its dashes at the start, and
nothing behind them but white space to both. -/
def LastMarkPlain (lines : List Text) : Prop :=
  ∀ line, lines.reverse.find? (fun line => isSeparator line || isMark line) = some line →
    PlainMark line

theorem composer_and_engine_agree_iff (text : Text) :
    (markIn (split '\n' text) = separatorIn (split '\n' text) ∧ Rebuilds text) ↔
      LastMarkPlain (split '\n' text) := by
  rw [separatorIn_eq, markIn, and_iff_left (rebuilds text)]
  generalize split '\n' text = lines
  rcases none_or_exists_last lines (fun line => isSeparator line || isMark line) with
    neither | ⟨before, last, after, rfl, either, neither⟩
  · simp only [Bool.or_eq_false_iff] at neither
    rw [lastIndex_eq_none fun line member => (neither line member).2,
      lastIndex_eq_none fun line member => (neither line member).1, eq_self_iff_true, true_iff]
    intro line found
    have member := List.mem_reverse.mp (List.mem_of_find?_eq_some found)
    have passes := List.find?_some found
    simp [neither line member] at passes
  · have isLast : (before ++ last :: after).reverse.find?
        (fun line => isSeparator line || isMark line) = some last := by
      have skipped : after.reverse.find? (fun line => isSeparator line || isMark line) = none :=
        List.find?_eq_none.mpr fun line member => by
          simp [neither line (List.mem_reverse.mp member)]
      rw [List.reverse_append, List.reverse_cons, List.append_assoc, List.find?_append, skipped,
        Option.none_or, List.singleton_append]
      exact List.find?_cons_of_pos either
    have plain : LastMarkPlain (before ++ last :: after) ↔ PlainMark last := by
      simp only [LastMarkPlain, isLast, Option.some.injEq, forall_eq']
    simp only [Bool.or_eq_false_iff] at neither
    have noSeparator := fun line member => (neither line member).1
    have noMark := fun line member => (neither line member).2
    rw [plain, plainMark_iff]
    constructor
    · intro agree
      rcases Bool.or_eq_true_iff.mp either with separates | marks
      · rw [lastIndex_append_cons separates noSeparator] at agree
        exact ⟨separates, passes_of_lastIndex noMark agree⟩
      · rw [lastIndex_append_cons marks noMark] at agree
        exact ⟨passes_of_lastIndex noSeparator agree.symm, marks⟩
    · rintro ⟨separates, marks⟩
      rw [lastIndex_append_cons separates noSeparator, lastIndex_append_cons marks noMark]

end

section

local instance : AsciiUnicode := plainTables

/-- A blank in front of the dashes. -/
theorem indented_separator_overlooked :
    unsignPlain "hi\n --\nJoe".toList = some "hi".toList ∧
      separatorIn (split '\n' "hi\n --\nJoe".toList) = some 1 ∧
      markIn (split '\n' "hi\n --\nJoe".toList) = none ∧
      splitSignature "hi\n --\nJoe".toList = ("hi\n --\nJoe".toList, none) := by
  decide

end

end Eeemail.Desktop.Signature
