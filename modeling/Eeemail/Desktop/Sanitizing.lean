import Eeemail.Lib.Documents
import Eeemail.Desktop.RichText

/-! # Sanitizing twice

`sanitizeToFragment` of `desktop/src/richtext.ts` reads what the walk has
written, and the composer walks it again on every paste and on sending.  Here
the markup is read as the tree its tags spell, its `style` attributes as the
declarations they list.  The second walk then writes the same markup: renaming,
unwrapping, splitting of spans and classes have nothing left to do. -/

set_option autoImplicit false

namespace Eeemail.Desktop.Sanitizing

open Lib.Texts Lib.Markup Lib.Documents Desktop.Fields Desktop.RichText

variable {pairs : List (Text × Text)} {property input tag : Text} {c : Char} {entry : SpanStyle}
variable {style : Option (Text → Text)} {value : Text}

/-! ## Reading the markup back -/

def isVoid (name : Text) : Bool := name == "br".toList

def declaration (css : Text) : Text × Text :=
  (css.takeWhile (· != ':'), (css.dropWhile (· != ':')).tail)

/-- What `getPropertyValue` answers for a `style` attribute, if every value is
kept as it is written.  The last declaration of a property counts. -/
def declared (css property : Text) : Text :=
  (((split ';' css).map declaration).reverse.lookup property).getD []

mutual

def nodeOf : Tree → Node
  | .text content => .text content
  | .element name attributes children =>
    .element (name.map Char.toUpper) (attributes.lookup "href".toList)
      (some (declared ((attributes.lookup "style".toList).getD []))) (nodesOf children)

def nodesOf : List Tree → List Node
  | [] => []
  | tree :: others => nodeOf tree :: nodesOf others

end

def readBack (html : Text) : Option (List Node) := (document isVoid html).map nodesOf

/-- What the browser leaves alone: the names of the tags that are written, and an
address that it has normalized already. -/
structure ReadsBack [Browser] : Prop where
  upper : ∀ tag ∈ allowed, Browser.toUpperCase tag = tag
  url : ∀ input url, Browser.parseUrl input = some url → Browser.parseUrl url.href = some url

/-! ## Declarations -/

theorem lookup_of_mem (nodup : (pairs.map (·.1)).Nodup)
    (member : (property, value) ∈ pairs) : pairs.lookup property = some value := by
  induction pairs with
  | nil => cases member
  | cons pair others ih =>
    obtain ⟨name, other⟩ := pair
    rw [List.map_cons, List.nodup_cons] at nodup
    rcases List.mem_cons.mp member with same | later
    · obtain ⟨rfl, rfl⟩ := Prod.mk.inj same
      exact List.lookup_cons_self
    · have differs : property ≠ name := by
        rintro rfl
        exact nodup.1 (List.mem_map.mpr ⟨(property, value), later, rfl⟩)
      rw [List.lookup_cons, beq_eq_false_iff_ne.mpr differs]
      exact ih nodup.2 later

theorem lookup_eq_none (absent : property ∉ pairs.map (·.1)) : pairs.lookup property = none := by
  rw [List.lookup_eq_none_iff]
  intro pair member
  rw [bne_iff_ne]
  rintro rfl
  exact absent (List.mem_map_of_mem member)

def cssOf (pair : Text × Text) : Text := pair.1 ++ ':' :: pair.2

theorem declaration_cssOf {pair : Text × Text} (plain : ':' ∉ pair.1) :
    declaration (cssOf pair) = pair := by
  have name : ∀ c ∈ pair.1, (c != ':') = true := by
    intro c member
    rw [bne_iff_ne]
    rintro rfl
    exact plain member
  unfold declaration cssOf
  rw [List.takeWhile_append_of_pos name, List.dropWhile_append_of_pos name]
  simp

/-- Declarations are read as they were written. -/
structure Plain (pairs : List (Text × Text)) : Prop where
  names : ∀ pair ∈ pairs, ':' ∉ pair.1
  separate : ∀ pair ∈ pairs, ';' ∉ cssOf pair
  nodup : (pairs.map (·.1)).Nodup

theorem Plain.split (plain : Plain pairs) (nonempty : pairs ≠ []) :
    (split ';' (join [';'] (pairs.map cssOf))).map declaration = pairs := by
  rw [split_join (by simpa using nonempty), List.map_map]
  · have each : ∀ pair ∈ pairs, (declaration ∘ cssOf) pair = pair :=
      fun pair member => declaration_cssOf (plain.names pair member)
    rw [List.map_congr_left each, List.map_id']
  · intro part member
    obtain ⟨pair, isPair, rfl⟩ := List.mem_map.mp member
    exact plain.separate pair isPair

theorem Plain.declared_of_mem (plain : Plain pairs) (member : (property, value) ∈ pairs) :
    declared (join [';'] (pairs.map cssOf)) property = value := by
  rw [declared, plain.split (List.ne_nil_of_mem member),
    lookup_of_mem _ (List.mem_reverse.mpr member)]
  · rfl
  · rw [List.map_reverse]
    exact List.nodup_reverse.mpr plain.nodup

theorem Plain.declared_of_not_mem (plain : Plain pairs) (nonempty : pairs ≠ [])
    (absent : property ∉ pairs.map (·.1)) :
    declared (join [';'] (pairs.map cssOf)) property = [] := by
  rw [declared, plain.split nonempty, lookup_eq_none]
  · rfl
  · rw [List.map_reverse, List.mem_reverse]
    exact absent

/-! ## Checked values -/

theorem not_isJsSpace (low : 33 ≤ c.toNat) (high : c.toNat ≤ 126) : isJsSpace c = false := by
  simp only [isJsSpace, List.contains_eq_mem, List.mem_cons, List.not_mem_nil, or_false,
    decide_eq_false_iff_not]
  omega

theorem toNat_of_isLower (lower : c.isLower = true) : 97 ≤ c.toNat ∧ c.toNat ≤ 122 := by
  simp only [Char.isLower, Bool.and_eq_true, decide_eq_true_eq, UInt32.le_iff_toNat_le] at lower
  exact lower

theorem toNat_of_isDigit (digit : c.isDigit = true) : 48 ≤ c.toNat ∧ c.toNat ≤ 57 := by
  simp only [Char.isDigit, Bool.and_eq_true, decide_eq_true_eq, UInt32.le_iff_toNat_le] at digit
  exact digit

structure Tight (value : Text) : Prop where
  trimmed : jsTrim value = value
  single : ';' ∉ value

theorem tight_of_solid
    (solid : ∀ c ∈ value, 33 ≤ c.toNat ∧ c.toNat ≤ 126 ∧ c ≠ ';') : Tight value where
  trimmed := by
    refine trimBy_eq_self isJsSpace (fun c isHead => ?_) (fun c isLast => ?_)
    · have bounds := solid c (List.mem_of_mem_head? isHead)
      exact not_isJsSpace bounds.1 bounds.2.1
    · have bounds := solid c (List.mem_of_getLast? isLast)
      exact not_isJsSpace bounds.1 bounds.2.1
  single member := (solid ';' member).2.2 rfl

theorem tight_of_isKeyword (keyword : isKeyword value = true) : Tight value := by
  simp only [isKeyword, Bool.and_eq_true, List.all_eq_true] at keyword
  refine tight_of_solid fun c member => ?_
  have bounds := toNat_of_isLower (keyword.2 c member)
  refine ⟨by omega, by omega, ?_⟩
  rintro rfl
  exact absurd bounds.1 (by decide)

theorem tight_of_isHexColour (hex : isHexColour value = true) : Tight value := by
  unfold isHexColour at hex
  split at hex
  next digits =>
    simp only [Bool.and_eq_true, List.all_eq_true, Bool.or_eq_true] at hex
    refine tight_of_solid fun c member => ?_
    rcases List.mem_cons.mp member with rfl | isDigit
    · decide
    · rcases hex.2 c isDigit with decimal | letter
      · have bounds := toNat_of_isDigit decimal
        refine ⟨by omega, by omega, ?_⟩
        rintro rfl
        exact absurd bounds.2 (by decide)
      · have letters : ("abcdef".toList.all fun c =>
            decide (33 ≤ c.toNat ∧ c.toNat ≤ 126 ∧ c ≠ ';')) = true := by decide
        exact of_decide_eq_true (List.all_eq_true.mp letters c (List.contains_iff_mem.mp letter))
  next => cases hex

theorem tight_of_isRgbRest (front : Text) {rest : Text} (isRest : isRgbRest rest = true)
    (head : ∀ c, (front ++ rest).head? = some c → isJsSpace c = false) (plain : ';' ∉ front) :
    Tight (front ++ rest) := by
  simp only [isRgbRest, Bool.and_eq_true, beq_iff_eq, List.all_eq_true] at isRest
  obtain ⟨⟨isLast, _⟩, within⟩ := isRest
  have parts : rest = rest.dropLast ++ [')'] := by
    rw [← List.dropLast_append_getLast? ')' isLast]
    simp
  refine ⟨trimBy_eq_self isJsSpace head fun c isEnd => ?_, ?_⟩
  · rw [parts, ← List.append_assoc, List.getLast?_concat, Option.some_inj] at isEnd
    rw [← isEnd]
    decide
  · rw [parts]
    simp only [List.mem_append, List.mem_singleton, not_or]
    refine ⟨plain, fun member => absurd (within ';' member) (by decide), by decide⟩

theorem tight_of_isRgb (rgb : isRgb value = true) : Tight value := by
  unfold isRgb at rgb
  split at rgb
  next => exact tight_of_isRgbRest "rgba(".toList rgb (by simp; decide) (by decide)
  next => exact tight_of_isRgbRest "rgb(".toList rgb (by simp; decide) (by decide)
  next => cases rgb

section

variable [AsciiUnicode]

theorem rechecks_colour (accepted : colour input = some value) :
    colour value = some value ∧ ';' ∉ value := by
  unfold colour at accepted
  split at accepted
  next => cases accepted
  next chosen =>
    split at accepted
    next isColour =>
      have isValue : lowercase (jsTrim input) = value := Option.some.inj accepted
      rw [isValue] at chosen isColour
      have tight : Tight value := by
        simp only [Bool.or_eq_true] at isColour
        rcases isColour with (rgb | hex) | keyword
        · exact tight_of_isRgb rgb
        · exact tight_of_isHexColour hex
        · exact tight_of_isKeyword keyword
      have same : lowercase (jsTrim value) = value := by
        rw [tight.trimmed, ← isValue, lowercase_lowercase]
      rw [colour, same, if_neg chosen, if_pos isColour]
      exact ⟨rfl, tight.single⟩
    next => cases accepted

omit [AsciiUnicode] in
theorem mem_of_listed {table : List Text} {v : Text}
    (accepted : (if table.contains v then some v else none) = some value) : value ∈ table := by
  split at accepted
  next isListed =>
    rw [← Option.some.inj accepted]
    exact List.contains_iff_mem.mp isListed
  next => cases accepted

theorem rechecks_fontFamily (accepted : fontFamily input = some value) :
    fontFamily value = some value ∧ ';' ∉ value := by
  have fixed : ∀ font ∈ fonts, font.all isPlain = true ∧
      unquote (jsTrim ((split ',' font).headD [])) = font ∧ asciiLower font = font ∧
      ';' ∉ font := by decide
  have isFont : value ∈ fonts := mem_of_listed accepted
  obtain ⟨plain, first, lower, single⟩ := fixed value isFont
  simp only [fontFamily, first, lowercase_of_plain plain, lower]
  exact ⟨if_pos (List.contains_iff_mem.mpr isFont), single⟩

theorem rechecks_fontSize (accepted : fontSize input = some value) :
    fontSize value = some value ∧ ';' ∉ value := by
  have fixed : ∀ size ∈ sizes, size.all isPlain = true ∧ jsTrim size = size ∧
      asciiLower size = size ∧ ';' ∉ size := by decide
  have isSize : value ∈ sizes := mem_of_listed accepted
  obtain ⟨plain, trimmed, lower, single⟩ := fixed value isSize
  simp only [fontSize, trimmed, lowercase_of_plain plain, lower]
  exact ⟨if_pos (List.contains_iff_mem.mpr isSize), single⟩

def properties : List Text :=
  ["color", "background-color", "font-family", "font-size"].map String.toList

theorem map_property_spanStyles : spanStyles.map (·.property) = properties := rfl

/-- What every checked property has: values that pass again, and none if it is not set. -/
structure Sound (entry : SpanStyle) : Prop where
  unset : entry.check [] = none
  again : ∀ input value, entry.check input = some value →
    entry.check value = some value ∧ ';' ∉ value

theorem sound_of_mem (isEntry : entry ∈ spanStyles) : Sound entry := by
  have nothing : lowercase [] = [] := lowercase_of_plain rfl
  have noColour : colour [] = none := by
    have trimmed : jsTrim [] = [] := rfl
    rw [colour, trimmed, nothing]
    decide
  have noFamily : fontFamily [] = none := by
    have first : unquote (jsTrim ((split ',' []).headD [])) = [] := rfl
    simp only [fontFamily, first, nothing]
    decide
  have noSize : fontSize [] = none := by
    have trimmed : jsTrim [] = [] := rfl
    simp only [fontSize, trimmed, nothing]
    decide
  simp only [spanStyles, List.mem_cons, List.not_mem_nil, or_false] at isEntry
  rcases isEntry with rfl | rfl | rfl | rfl
  · exact ⟨noColour, fun _ _ => rechecks_colour⟩
  · exact ⟨noColour, fun _ _ => rechecks_colour⟩
  · exact ⟨noFamily, fun _ _ => rechecks_fontFamily⟩
  · exact ⟨noSize, fun _ _ => rechecks_fontSize⟩

theorem entry_unique {other : SpanStyle} (isEntry : entry ∈ spanStyles)
    (isOther : other ∈ spanStyles) (same : entry.property = other.property) : entry = other := by
  have nodup : properties.Nodup := by decide
  rw [← map_property_spanStyles] at nodup
  exact List.inj_on_of_nodup_map nodup isEntry isOther same

/-! ## Styles that are kept -/

/-- Declarations that the check of their property passes as they are. -/
structure Kempt (pairs : List (Text × Text)) : Prop where
  nonempty : pairs ≠ []
  nodup : (pairs.map (·.1)).Nodup
  passes : ∀ pair ∈ pairs, ∃ entry ∈ spanStyles, entry.property = pair.1 ∧
    entry.check pair.2 = some pair.2 ∧ ';' ∉ pair.2

theorem Kempt.plain (kempt : Kempt pairs) : Plain pairs := by
  have names : ∀ name ∈ properties, ':' ∉ name ∧ ';' ∉ name := by decide
  have ofPair : ∀ pair ∈ pairs, (':' ∉ pair.1 ∧ ';' ∉ pair.1) ∧ ';' ∉ pair.2 := by
    intro pair member
    obtain ⟨entry, isEntry, isName, _, single⟩ := kempt.passes pair member
    refine ⟨names pair.1 ?_, single⟩
    rw [← isName, ← map_property_spanStyles]
    exact List.mem_map_of_mem isEntry
  refine ⟨fun pair member => (ofPair pair member).1.1, fun pair member => ?_, kempt.nodup⟩
  obtain ⟨⟨_, name⟩, value⟩ := ofPair pair member
  simp only [cssOf, List.mem_append, List.mem_cons, not_or]
  exact ⟨name, by decide, value⟩

theorem Kempt.keptStyles (kempt : Kempt pairs) :
    keptStyles (some (declared (join [';'] (pairs.map cssOf)))) =
      spanStyles.flatMap fun entry =>
        match pairs.lookup entry.property with
        | none => []
        | some value => [⟨entry.property ++ ':' :: value, entry.className⟩] := by
  unfold RichText.keptStyles
  refine List.flatMap_congr fun entry isEntry => ?_
  have plain := kempt.plain
  simp only [Option.map_some, Option.getD_some]
  by_cases isSet : entry.property ∈ pairs.map (·.1)
  · obtain ⟨⟨property, value⟩, member, isName⟩ := List.mem_map.mp isSet
    obtain ⟨other, isOther, sameName, again, _⟩ := kempt.passes _ member
    have isSame : other = entry := entry_unique isOther isEntry (sameName.trans isName)
    have found : (entry.property, value) ∈ pairs := isName ▸ member
    rw [isSame] at again
    rw [plain.declared_of_mem found, lookup_of_mem kempt.nodup found, again]
  · rw [plain.declared_of_not_mem kempt.nonempty isSet, lookup_eq_none isSet,
      (sound_of_mem isEntry).unset]

def pairsOf (style : Option (Text → Text)) : List (Text × Text) :=
  spanStyles.filterMap fun entry =>
    (entry.check ((style.map (· entry.property)).getD [])).map fun value => (entry.property, value)

theorem mem_pairsOf {pair : Text × Text} :
    pair ∈ pairsOf style ↔ ∃ entry ∈ spanStyles, entry.property = pair.1 ∧
      entry.check ((style.map (· entry.property)).getD []) = some pair.2 := by
  simp only [pairsOf, List.mem_filterMap, Option.map_eq_some_iff]
  constructor
  · rintro ⟨entry, isEntry, value, accepted, rfl⟩
    exact ⟨entry, isEntry, rfl, accepted⟩
  · rintro ⟨entry, isEntry, isName, accepted⟩
    exact ⟨entry, isEntry, pair.2, accepted, Prod.ext isName rfl⟩

theorem map_css_keptStyles (style : Option (Text → Text)) :
    (keptStyles style).map (·.css) = (pairsOf style).map cssOf := by
  unfold RichText.keptStyles pairsOf
  induction spanStyles with
  | nil => rfl
  | cons entry others ih =>
    rw [List.flatMap_cons, List.map_append, List.filterMap_cons, ih]
    cases entry.check ((style.map (· entry.property)).getD []) <;> rfl

theorem nodup_pairsOf (style : Option (Text → Text)) : ((pairsOf style).map (·.1)).Nodup := by
  have names : ((pairsOf style).map (·.1)).Sublist (spanStyles.map (·.property)) := by
    unfold pairsOf
    induction spanStyles with
    | nil => exact .slnil
    | cons entry others ih =>
      rw [List.filterMap_cons, List.map_cons]
      cases entry.check ((style.map (· entry.property)).getD []) with
      | none => exact ih.cons _
      | some value => exact ih.cons_cons _
  have nodup : properties.Nodup := by decide
  exact names.nodup nodup

theorem kempt_pairsOf (someStyle : keptStyles style ≠ []) :
    Kempt (pairsOf style) where
  nonempty empty := by
    have kept := map_css_keptStyles style
    rw [empty, List.map_nil, List.map_eq_nil_iff] at kept
    exact someStyle kept
  nodup := nodup_pairsOf style
  passes pair member := by
    obtain ⟨entry, isEntry, isName, accepted⟩ := mem_pairsOf.mp member
    obtain ⟨again, single⟩ := (sound_of_mem isEntry).again _ _ accepted
    exact ⟨entry, isEntry, isName, again, single⟩

theorem lookup_pairsOf (isEntry : entry ∈ spanStyles) : (pairsOf style).lookup entry.property =
      entry.check ((style.map (· entry.property)).getD []) := by
  cases accepted : entry.check ((style.map (· entry.property)).getD []) with
  | some value =>
    exact lookup_of_mem (nodup_pairsOf style) (mem_pairsOf.mpr ⟨entry, isEntry, rfl, accepted⟩)
  | none =>
    refine lookup_eq_none fun isSet => ?_
    obtain ⟨pair, member, isName⟩ := List.mem_map.mp isSet
    obtain ⟨other, isOther, otherName, otherAccepted⟩ := mem_pairsOf.mp member
    have isSame : other = entry := entry_unique isOther isEntry (otherName.trans isName)
    rw [isSame, accepted] at otherAccepted
    cases otherAccepted

theorem keptStyles_declared (someStyle : keptStyles style ≠ []) :
    keptStyles (some (declared (join [';'] ((keptStyles style).map (·.css))))) =
      keptStyles style := by
  rw [map_css_keptStyles, (kempt_pairsOf someStyle).keptStyles]
  refine List.flatMap_congr fun entry isEntry => ?_
  rewrite [lookup_pairsOf isEntry]
  cases entry.check ((style.map (· entry.property)).getD []) <;> rfl

theorem keptStyles_single {k : Kept} (isKept : k ∈ keptStyles style) :
    keptStyles (some (declared k.css)) = [k] := by
  obtain ⟨entry, isEntry, input, value, accepted, rfl⟩ := mem_keptStyles isKept
  obtain ⟨again, single⟩ := (sound_of_mem isEntry).again _ _ accepted
  have kempt : Kempt [(entry.property, value)] := by
    refine ⟨List.cons_ne_nil _ _, List.nodup_singleton _, fun pair member => ?_⟩
    rw [List.mem_singleton.mp member]
    exact ⟨entry, isEntry, rfl, again, single⟩
  refine kempt.keptStyles.trans ?_
  simp only [spanStyles, List.mem_cons, List.not_mem_nil, or_false] at isEntry
  rcases isEntry with rfl | rfl | rfl | rfl
  all_goals rfl

/-! ## Elements -/

variable [Browser] {mode : Mode} {attributes : List (Text × Text)} {href : Option Text}

theorem tagOf_upper (reads : ReadsBack) (isAllowed : tag ∈ allowed) :
    tagOf ((lowercase tag).map Char.toUpper) = tag := by
  have names : ∀ tag ∈ allowed, (asciiLower tag).map Char.toUpper = tag ∧
      renamed.lookup tag = none := by decide
  obtain ⟨upper, notRenamed⟩ := names tag isAllowed
  rw [(lowercase_allowed isAllowed).1, upper, tagOf, reads.upper tag isAllowed, notRenamed]
  rfl

omit [AsciiUnicode] in
theorem safeHref_safeHref (reads : ReadsBack) {target : Text}
    (safe : safeHref input = some target) : safeHref target = some target := by
  unfold safeHref at safe ⊢
  cases parsed : Browser.parseUrl input with
  | none =>
    rw [parsed] at safe
    cases safe
  | some url =>
    simp only [parsed] at safe
    split at safe
    next scheme =>
      obtain rfl := Option.some.inj safe
      simp only [reads.url input url parsed]
      exact if_pos scheme
    next => cases safe

/-- An element with these attributes is written with them again. -/
def Fixed (mode : Mode) (tag : Text) (attributes : List (Text × Text)) : Prop :=
  ∀ inner, elementHtml mode tag (attributes.lookup "href".toList)
      (some (declared ((attributes.lookup "style".toList).getD []))) inner =
    startTag (lowercase tag) attributes ++ inner ++ endTag (lowercase tag)

structure IsBlock (tag : Text) : Prop where
  notDropped : dropped.contains tag = false
  isAllowed : tag ∈ allowed
  notBreak : tag ≠ "BR".toList
  notLink : tag ≠ "A".toList
  notSpan : tag ≠ "SPAN".toList

omit [AsciiUnicode] [Browser] in
theorem notDropped_of_allowed (isAllowed : tag ∈ allowed) : dropped.contains tag = false := by
  have apart : ∀ tag ∈ allowed, dropped.contains tag = false := by decide
  exact apart tag isAllowed

omit [AsciiUnicode] [Browser] in
theorem isBlock_of_alignable (isBlock : tag ∈ alignable) : IsBlock tag := by
  have blocks : ∀ tag ∈ alignable,
      tag ≠ "BR".toList ∧ tag ≠ "A".toList ∧ tag ≠ "SPAN".toList := by decide
  obtain ⟨notBreak, notLink, notSpan⟩ := blocks tag isBlock
  have isAllowed := allowed_of_alignable isBlock
  exact ⟨notDropped_of_allowed isAllowed, isAllowed, notBreak, notLink, notSpan⟩

theorem IsBlock.elementHtml (block : IsBlock tag) (href : Option Text)
    (style : Option (Text → Text)) (inner : Text) :
    elementHtml mode tag href style inner = blockHtml mode tag style inner := by
  unfold RichText.elementHtml
  rw [block.notDropped, if_neg Bool.false_ne_true, if_neg block.notBreak,
    if_neg (by simp [block.isAllowed]), if_neg block.notLink, if_neg block.notSpan]

theorem fixed_bare (block : IsBlock tag) : Fixed mode tag [] := by
  intro inner
  have unaligned : alignments.contains (alignOf tag (some (declared []))) = false := by
    unfold alignOf
    split
    · decide
    · decide
  rw [block.elementHtml]
  unfold blockHtml
  simp only [List.lookup_nil, Option.getD_none, unaligned, Bool.false_eq_true, if_false,
    startTag_bare, endTag_eq, List.append_assoc]

theorem fixed_aligned {align : Text} (isBlock : tag ∈ alignable) (isAlignment : align ∈ alignments)
    (style : attributes.lookup "style".toList = some ("text-align:".toList ++ align))
    (written : startTag (lowercase tag) attributes = "<".toList ++ lowercase tag ++
      alignClass mode align ++ " style=\"text-align:".toList ++ align ++ "\">".toList) :
    Fixed mode tag attributes := by
  intro inner
  have aligned : ∀ align ∈ alignments,
      jsTrim (declared ("text-align:".toList ++ align) "text-align".toList) = align := by decide
  have isAlign : alignOf tag (some (declared ("text-align:".toList ++ align))) = align := by
    unfold alignOf
    rw [if_pos (List.contains_iff_mem.mpr isBlock)]
    exact aligned align isAlignment
  rw [(isBlock_of_alignable isBlock).elementHtml, style, Option.getD_some, written]
  unfold blockHtml
  simp only [isAlign, List.contains_iff_mem.mpr isAlignment, if_true, endTag_eq, List.append_assoc]

theorem fixed_link (reads : ReadsBack) {target : Text} (safe : safeHref input = some target) :
    Fixed mode "A".toList [("href".toList, target)] := by
  intro inner
  have again : safeHref target = some target := safeHref_safeHref reads safe
  have href : List.lookup "href".toList [("href".toList, target)] = some target :=
    List.lookup_cons_self
  rw [lowercase_link, startTag_href, href]
  unfold elementHtml
  rw [if_neg (by decide), if_neg (by decide), if_neg (by decide), if_pos rfl,
    Option.getD_some, again]
  rfl

theorem elementHtml_span (href : Option Text) (style : Option (Text → Text)) (inner : Text) :
    elementHtml mode "SPAN".toList href style inner = spanHtml mode style inner := by
  unfold elementHtml
  rw [if_neg (by decide), if_neg (by decide), if_neg (by decide), if_neg (by decide), if_pos rfl]

theorem fixed_styled (someStyle : keptStyles style ≠ []) :
    Fixed .wire "SPAN".toList
      [("style".toList, join [';'] ((keptStyles style).map (·.css)))] := by
  intro inner
  have css : List.lookup "style".toList
      [("style".toList, join [';'] ((keptStyles style).map (·.css)))] =
      some (join [';'] ((keptStyles style).map (·.css))) := List.lookup_cons_self
  rw [lowercase_span, startTag_style, css, elementHtml_span]
  unfold spanHtml
  simp only [Option.getD_some, keptStyles_declared someStyle, List.isEmpty_iff, someStyle, if_false]
  rfl

theorem fixed_marked {k : Kept} (isKept : k ∈ keptStyles style) :
    Fixed .editor "SPAN".toList [("class".toList, k.className), ("style".toList, k.css)] := by
  intro inner
  obtain ⟨entry, isEntry, _, _, _, isK⟩ := mem_keptStyles isKept
  have className : escape k.className = k.className := isK ▸ escape_className isEntry
  have css : List.lookup "style".toList
      [("class".toList, k.className), ("style".toList, k.css)] = some k.css := rfl
  rw [lowercase_span, startTag_class_style, css, elementHtml_span, className]
  unfold spanHtml
  simp only [Option.getD_some, keptStyles_single isKept]
  rfl

theorem WrittenAs.fixed (reads : ReadsBack)
    (written : WrittenAs mode href style tag attributes) : Fixed mode tag attributes := by
  cases written with
  | bare isAllowed notBreak notLink notSpan =>
    exact fixed_bare ⟨notDropped_of_allowed isAllowed, isAllowed, notBreak, notLink, notSpan⟩
  | link safe => exact fixed_link reads safe
  | styled toWire someStyle =>
    subst toWire
    exact fixed_styled someStyle
  | marked toEditor isKept =>
    subst toEditor
    exact fixed_marked isKept
  | aligned toWire isBlock isAlignment =>
    subst toWire
    obtain ⟨css, _⟩ := escape_alignment isAlignment
    refine fixed_aligned isBlock isAlignment List.lookup_cons_self ?_
    rw [startTag_style, css, alignClass_wire]
    simp
  | alignedMarked toEditor isBlock isAlignment =>
    subst toEditor
    obtain ⟨css, cls⟩ := escape_alignment isAlignment
    refine fixed_aligned isBlock isAlignment rfl ?_
    rw [startTag_class_style, css, cls, alignClass_editor]
    simp

/-! ## The walk over what it has written -/

theorem innerHtml_append (first second : List Node) :
    innerHtml mode (first ++ second) = innerHtml mode first ++ innerHtml mode second := by
  induction first with
  | nil => simp [innerHtml]
  | cons child others ih => simp [innerHtml, ih]

omit [AsciiUnicode] [Browser] in
theorem nodesOf_append (first second : List Tree) :
    nodesOf (first ++ second) = nodesOf first ++ nodesOf second := by
  induction first with
  | nil => simp [nodesOf]
  | cons tree others ih => simp [nodesOf, ih]

def Writes (mode : Mode) (name : Text) (attributes : List (Text × Text)) : Prop :=
  ∃ tag href style, name = lowercase tag ∧ WrittenAs mode href style tag attributes

omit [Browser] in
theorem lowercase_break : lowercase "BR".toList = "br".toList :=
  (lowercase_allowed (by decide)).1.trans (by decide)

theorem prints_innerHtml (reads : ReadsBack) :
    Prints isVoid (Writes mode) fun trees => innerHtml mode (nodesOf trees) where
  nil := by simp [nodesOf, innerHtml]
  append first second := by rw [nodesOf_append, innerHtml_append]
  text content := by simp [nodesOf, nodeOf, innerHtml, toHtml, escape]
  void name isEmpty _ := by
    obtain rfl : name = "br".toList := beq_iff_eq.mp isEmpty
    have tag := tagOf_upper reads (show "BR".toList ∈ allowed by decide)
    rw [lowercase_break] at tag
    simp only [nodesOf, nodeOf, innerHtml, toHtml, tag]
    rw [elementHtml, if_neg (by decide), if_pos rfl]
    decide
  element name attributes children := by
    rintro ⟨tag, href, style, rfl, written⟩
    simp only [nodesOf, nodeOf, innerHtml, toHtml, tagOf_upper reads written.permitted.isAllowed,
      List.append_nil]
    exact WrittenAs.fixed reads written _

theorem WrittenAs.filled
    (written : WrittenAs mode href style tag attributes) : isVoid (lowercase tag) = false := by
  have names : ∀ tag ∈ allowed, tag ≠ "BR".toList → isVoid (asciiLower tag) = false := by decide
  have isAllowed := (WrittenAs.permitted _ _ written).isAllowed
  have notBreak : tag ≠ "BR".toList := by
    cases written with
    | bare _ notBreak => exact notBreak
    | link | styled | marked => decide
    | aligned _ isBlock | alignedMarked _ isBlock => exact (isBlock_of_alignable isBlock).notBreak
  rw [(lowercase_allowed isAllowed).1]
  exact names tag isAllowed notBreak

theorem Encloses.spelling {inner outer : Text}
    (encloses : Encloses (WrittenAs mode href style) inner outer)
    (isInner : Spelling isVoid (Writes mode) inner) : Spelling isVoid (Writes mode) outer := by
  induction encloses with
  | same => exact isInner
  | element written _ ih =>
    have permitted := WrittenAs.permitted _ _ written
    exact .element (lowercase_allowed permitted.isAllowed).2 (WrittenAs.filled written)
      permitted.names ⟨_, href, style, rfl, written⟩ ih

theorem spelling_elementHtml (tag : Text) (href : Option Text) (style : Option (Text → Text))
    {inner : Text} (isInner : Spelling isVoid (Writes mode) inner) :
    Spelling isVoid (Writes mode) (elementHtml mode tag href style inner) := by
  cases isDropped : dropped.contains tag with
  | true =>
    rw [elementHtml, isDropped, if_pos rfl]
    exact .text []
  | false =>
    by_cases isBreak : tag = "BR".toList
    · have lineBreak : Spelling isVoid (Writes mode) (startTag "br".toList []) :=
        .void (by decide) (by decide)
      rw [elementHtml, isDropped, if_neg Bool.false_ne_true, if_pos isBreak]
      exact lineBreak
    · exact Encloses.spelling (encloses_elementHtml href style inner isDropped isBreak) isInner

mutual

theorem spelling_toHtml (mode : Mode) : ∀ node, Spelling isVoid (Writes mode) (toHtml mode node)
  | .text nodeValue => by
    rw [toHtml]
    exact .text nodeValue
  | .other => by
    rw [toHtml]
    exact .text []
  | .element tagName href style childNodes => by
    rw [toHtml]
    exact spelling_elementHtml _ href style (spelling_innerHtml mode childNodes)

theorem spelling_innerHtml (mode : Mode) :
    ∀ nodes, Spelling isVoid (Writes mode) (innerHtml mode nodes)
  | [] => by
    rw [innerHtml]
    exact .text []
  | child :: others => by
    rw [innerHtml]
    exact .append (spelling_toHtml mode child) (spelling_innerHtml mode others)

end

theorem sanitizing_twice_is_once (reads : ReadsBack) (mode : Mode) (node : Node) :
    (readBack (toHtml mode node)).map (innerHtml mode) = some (toHtml mode node) := by
  rw [readBack, Option.map_map]
  exact (spelling_toHtml mode node).document (prints_innerHtml reads)

end

local instance : AsciiUnicode := plainTables

def site : Text := "https://example.org/".toList

/-- A browser that knows one address, which it normalizes. -/
local instance : Browser where
  parseUrl s :=
    if s = site ∨ s = "HTTPS://example.org".toList then some ⟨"https:".toList, site⟩ else none
  toUpperCase s := s.map Char.toUpper
  parse _ := []

theorem readsBack_site : ReadsBack where
  upper := by decide
  url input url parsed := by
    simp only [Browser.parseUrl] at parsed
    split at parsed
    next =>
      rw [← Option.some.inj parsed]
      rfl
    next => cases parsed

def pasted : Node :=
  .element "p".toList none (some fun property =>
      if property = "text-align".toList then "center".toList else [])
    [.element "STRONG".toList none none [.text "1 < 2".toList],
      .element "SCRIPT".toList none none [.text "run()".toList],
      .element "A".toList (some "HTTPS://example.org".toList) none [.text "here".toList],
      .element "SPAN".toList none (some fun property =>
          if property = "color".toList then " RED ".toList else []) [.other, .text "now".toList],
      .element "BR".toList none none []]

theorem pasted_sanitized_twice :
    toHtml .editor pasted = ("<p class=\"align-center\" style=\"text-align:center\">" ++
      "<b>1 &lt; 2</b><a href=\"https://example.org/\">here</a>" ++
      "<span class=\"color\" style=\"color:red\">now</span><br></p>").toList ∧
    (readBack (toHtml .editor pasted)).map (innerHtml .editor) = some (toHtml .editor pasted) :=
  ⟨by decide +kernel, sanitizing_twice_is_once readsBack_site .editor pasted⟩

end Eeemail.Desktop.Sanitizing
