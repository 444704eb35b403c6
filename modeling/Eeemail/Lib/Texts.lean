import Mathlib

/-! # Texts

A text is the list of its characters, so that the operations on it are
structural recursions that the kernel evaluates.  What depends on the Unicode
tables (which characters are white space, how a text is lowercased, how it is
quoted for a diagnostic) is a class: the operations below are defined for every
instance, and its laws are the only facts about the tables that proofs use. -/

set_option autoImplicit false

namespace Eeemail.Lib.Texts

abbrev Text := List Char

/-! ## Trimming and folding -/

variable {part s : Text} {c : Char} {parts : List Text}

section Trimming

variable (blank : Char → Bool)

def trimStartBy (s : Text) : Text := s.dropWhile blank

def trimEndBy (s : Text) : Text := (s.reverse.dropWhile blank).reverse

def trimBy (s : Text) : Text := trimEndBy blank (trimStartBy blank s)

theorem dropWhile_map_of_blank (f : Char → Char) (keeps : ∀ c, blank (f c) = blank c) (s : Text) :
    (s.map f).dropWhile blank = (s.dropWhile blank).map f := by
  induction s with
  | nil => rfl
  | cons c rest ih =>
    simp only [List.map_cons, List.dropWhile_cons, keeps]
    split
    · exact ih
    · rfl

theorem trimBy_map_of_blank (f : Char → Char) (keeps : ∀ c, blank (f c) = blank c) (s : Text) :
    trimBy blank (s.map f) = (trimBy blank s).map f := by
  simp only [trimBy, trimStartBy, trimEndBy, dropWhile_map_of_blank blank f keeps,
    ← List.map_reverse]

theorem trimStartBy_eq_self (head : ∀ c, s.head? = some c → blank c = false) :
    trimStartBy blank s = s := by
  cases s with
  | nil => rfl
  | cons c rest => simp [trimStartBy, head c rfl]

theorem head?_trimStartBy (head : (trimStartBy blank s).head? = some c) : blank c = false := by
  have kept := List.head?_dropWhile_not blank s
  simp only [trimStartBy] at head
  simpa [head] using kept

theorem trimStartBy_trimStartBy (s : Text) :
    trimStartBy blank (trimStartBy blank s) = trimStartBy blank s :=
  trimStartBy_eq_self blank fun _ head => head?_trimStartBy blank head

theorem trimEndBy_prefix (s : Text) : trimEndBy blank s <+: s := by
  rw [← List.reverse_suffix]
  simp only [trimEndBy, List.reverse_reverse]
  exact List.dropWhile_suffix blank

theorem exists_trimStartBy (s : Text) :
    ∃ front, s = front ++ trimStartBy blank s ∧ ∀ c ∈ front, blank c = true :=
  ⟨s.takeWhile blank, List.takeWhile_append_dropWhile.symm, fun _ => List.mem_takeWhile_imp⟩

theorem exists_trimEndBy (s : Text) :
    ∃ back, s = trimEndBy blank s ++ back ∧ ∀ c ∈ back, blank c = true := by
  obtain ⟨front, split, blanks⟩ := exists_trimStartBy blank s.reverse
  refine ⟨front.reverse, ?_, fun c member => blanks c (List.mem_reverse.mp member)⟩
  rw [trimEndBy, ← List.reverse_append]
  exact List.reverse_eq_iff.mp split

theorem trimStartBy_append_of_blank {front : Text} (blanks : ∀ c ∈ front, blank c = true)
    (s : Text) : trimStartBy blank (front ++ s) = trimStartBy blank s :=
  List.dropWhile_append_of_pos blanks

theorem trimEndBy_append_of_blank {back : Text} (blanks : ∀ c ∈ back, blank c = true) (s : Text) :
    trimEndBy blank (s ++ back) = trimEndBy blank s := by
  rw [trimEndBy, List.reverse_append, List.dropWhile_append_of_pos, trimEndBy]
  exact fun c member => blanks c (List.mem_reverse.mp member)

theorem trimEndBy_append_of_solid (solid : blank c = false) (s : Text) :
    trimEndBy blank (s ++ [c]) = s ++ [c] := by
  rw [trimEndBy, List.reverse_append, List.reverse_singleton, List.singleton_append,
    List.dropWhile_cons_of_neg (by simp [solid]), List.reverse_cons, List.reverse_reverse]

theorem exists_trimBy (s : Text) :
    ∃ front back, s = front ++ trimBy blank s ++ back ∧ (∀ c ∈ front, blank c = true) ∧
      ∀ c ∈ back, blank c = true := by
  obtain ⟨front, isWhole, blankFront⟩ := exists_trimStartBy blank s
  obtain ⟨back, isRest, blankBack⟩ := exists_trimEndBy blank (trimStartBy blank s)
  refine ⟨front, back, ?_, blankFront, blankBack⟩
  rw [List.append_assoc, trimBy, ← isRest]
  exact isWhole

theorem blank_of_trimBy_eq_nil (isNil : trimBy blank s = []) : ∀ c ∈ s, blank c = true := by
  obtain ⟨front, back, isWhole, blankFront, blankBack⟩ := exists_trimBy blank s
  intro c member
  rw [isWhole, isNil, List.append_nil] at member
  rcases List.mem_append.mp member with early | late
  · exact blankFront c early
  · exact blankBack c late

theorem head?_trimBy (head : (trimBy blank s).head? = some c) : blank c = false := by
  -- What trimming the end leaves starts as the text it trims.
  obtain ⟨rest, split⟩ := trimEndBy_prefix blank (trimStartBy blank s)
  refine head?_trimStartBy blank (s := s) ?_
  rw [← split, List.head?_append, ← trimBy, head, Option.some_or]

theorem getLast?_trimBy (last : (trimBy blank s).getLast? = some c) : blank c = false := by
  rw [trimBy, trimEndBy, List.getLast?_reverse] at last
  exact head?_trimStartBy blank last

theorem trimBy_eq_self (head : ∀ c, s.head? = some c → blank c = false)
    (last : ∀ c, s.getLast? = some c → blank c = false) : trimBy blank s = s := by
  have start : trimStartBy blank s.reverse = s.reverse := by
    refine trimStartBy_eq_self blank fun c isHead => last c ?_
    rwa [List.head?_reverse] at isHead
  rw [trimBy, trimStartBy_eq_self blank head, trimEndBy, ← trimStartBy, start, List.reverse_reverse]

theorem trimBy_trimBy (s : Text) : trimBy blank (trimBy blank s) = trimBy blank s :=
  trimBy_eq_self blank (fun _ => head?_trimBy blank) fun _ => getLast?_trimBy blank

theorem trimBy_append_of_blank {front back : Text} (blankFront : ∀ c ∈ front, blank c = true)
    (blankBack : ∀ c ∈ back, blank c = true) (s : Text) :
    trimBy blank (front ++ s ++ back) = trimBy blank s := by
  have nothing : back.dropWhile blank = [] := List.dropWhile_eq_nil_iff.mpr blankBack
  rw [trimBy, List.append_assoc, trimStartBy_append_of_blank _ blankFront, trimStartBy,
    List.dropWhile_append, nothing]
  split_ifs with allBlank
  · rw [trimBy, trimStartBy, List.isEmpty_iff.mp allBlank]
  · rw [trimEndBy_append_of_blank _ blankBack, trimBy, trimStartBy]

end Trimming

/-- The folding behind SQLite's `NOCASE`: only the 26 ASCII letters change. -/
def asciiLower (s : Text) : Text := s.map Char.toLower

def nocaseEq (s t : Text) : Bool := asciiLower s == asciiLower t

theorem nocaseEq_iff {t : Text} : nocaseEq s t = true ↔ asciiLower s = asciiLower t := by
  simp [nocaseEq]

/-- The Unicode tables a program consults. -/
class Unicode where
  isWhitespace : Char → Bool
  lowercase : Text → Text
  /-- The quoted form of a text in a diagnostic. -/
  debug : Text → Text
  lowercase_nil : lowercase [] = []
  lowercase_idem : ∀ s, lowercase (lowercase s) = lowercase s
  lowercase_asciiLower : ∀ s, lowercase (asciiLower s) = lowercase s
  asciiLower_lowercase : ∀ s, asciiLower (lowercase s) = lowercase s
  lowercase_trim : ∀ s, lowercase (trimBy isWhitespace s) = trimBy isWhitespace (lowercase s)
  /-- Lowercasing looks at the letters around a character, and `@` is none. -/
  lowercase_at : ∀ s t, lowercase (s ++ '@' :: t) = lowercase s ++ '@' :: lowercase t
  at_of_lowercase : ∀ s, '@' ∈ lowercase s → '@' ∈ s

section Operations

variable [Unicode]

def lowercase (s : Text) : Text := Unicode.lowercase s

def trim (s : Text) : Text := trimBy Unicode.isWhitespace s

def trimEnd (s : Text) : Text := trimEndBy Unicode.isWhitespace s

theorem lowercase_eq_of_nocaseEq {t : Text} (same : nocaseEq s t = true) :
    lowercase s = lowercase t := by
  have folded := nocaseEq_iff.mp same
  rw [lowercase, lowercase, ← Unicode.lowercase_asciiLower s, folded,
    Unicode.lowercase_asciiLower t]

theorem lowercase_trim (s : Text) : lowercase (trim s) = trim (lowercase s) :=
  Unicode.lowercase_trim s

theorem trim_trim (s : Text) : trim (trim s) = trim s := trimBy_trimBy _ s

theorem lowercase_lowercase (s : Text) : lowercase (lowercase s) = lowercase s :=
  Unicode.lowercase_idem s

theorem lowercase_at (s t : Text) : lowercase (s ++ '@' :: t) = lowercase s ++ '@' :: lowercase t :=
  Unicode.lowercase_at s t

theorem at_mem_lowercase : '@' ∈ lowercase s ↔ '@' ∈ s := by
  refine ⟨Unicode.at_of_lowercase s, fun member => ?_⟩
  obtain ⟨before, after, rfl⟩ := List.append_of_mem member
  rw [lowercase_at]
  exact List.mem_append_right _ List.mem_cons_self

theorem trim_eq_self (solid : ∀ c ∈ s, Unicode.isWhitespace c = false) : trim s = s := by
  have start : trimStartBy Unicode.isWhitespace s = s :=
    trimStartBy_eq_self _ fun c head => solid c (List.mem_of_mem_head? head)
  have ended : trimStartBy Unicode.isWhitespace s.reverse = s.reverse := by
    refine trimStartBy_eq_self _ fun c head => solid c ?_
    exact List.mem_reverse.mp (List.mem_of_mem_head? head)
  rw [trim, trimBy, start, trimEndBy]
  rw [trimStartBy] at ended
  rw [ended, List.reverse_reverse]

end Operations

/-! ## Searching and splitting -/

def startsWith (start s : Text) : Bool := start.isPrefixOf s

theorem startsWith_append {start t : Text} (differs : ∀ c, t.head? = some c → c ∉ start) :
    startsWith start (s ++ t) = startsWith start s := by
  rw [Bool.eq_iff_iff, startsWith, startsWith, List.isPrefixOf_iff_prefix,
    List.isPrefixOf_iff_prefix]
  constructor
  · intro within
    rcases List.prefix_or_prefix_of_prefix within (List.prefix_append s t) with isPrefix | longer
    · exact isPrefix
    · obtain ⟨rest, rfl⟩ := longer
      cases rest with
      | nil => exact (List.append_nil s).symm ▸ List.prefix_rfl
      | cons c others =>
        obtain ⟨later, rfl⟩ := (List.prefix_append_right_inj s).mp within
        exact absurd (by simp) (differs c rfl)
  · exact fun within => within.trans (List.prefix_append s t)

def contains (part s : Text) : Bool := s.tails.any part.isPrefixOf

theorem contains_iff : contains part s = true ↔ part <:+: s := by
  simp only [contains, List.any_eq_true, List.mem_tails, List.isPrefixOf_iff_prefix,
    List.infix_iff_prefix_suffix, and_comm]

def rsplitOnce (c : Char) : Text → Option (Text × Text)
  | [] => none
  | x :: rest =>
    match rsplitOnce c rest with
    | some (before, after) => some (x :: before, after)
    | none => if x = c then some ([], rest) else none

theorem rsplitOnce_eq_none : rsplitOnce c s = none ↔ c ∉ s := by
  induction s with
  | nil => simp [rsplitOnce]
  | cons x rest ih =>
    unfold rsplitOnce
    cases later : rsplitOnce c rest with
    | some parts =>
      have member : c ∈ rest := by
        by_contra missing
        rw [ih.mpr missing] at later
        cases later
      simp [member]
    | none =>
      have missing := ih.mp later
      by_cases same : x = c
      · simp [same]
      · simp [same, missing, Ne.symm same]

theorem rsplitOnce_eq_some {before after : Text}
    (found : rsplitOnce c s = some (before, after)) : s = before ++ c :: after ∧ c ∉ after := by
  induction s generalizing before with
  | nil => cases found
  | cons x rest ih =>
    unfold rsplitOnce at found
    cases later : rsplitOnce c rest with
    | some parts =>
      obtain ⟨inner, last⟩ := parts
      simp only [later, Option.some.injEq, Prod.mk.injEq] at found
      obtain ⟨rfl, rfl⟩ := found
      obtain ⟨same, unsplit⟩ := ih later
      exact ⟨by rw [same]; rfl, unsplit⟩
    | none =>
      simp only [later] at found
      split at found
      next isChar =>
        simp only [Option.some.injEq, Prod.mk.injEq] at found
        obtain ⟨rfl, rfl⟩ := found
        exact ⟨by rw [isChar]; rfl, rsplitOnce_eq_none.mp later⟩
      next => cases found

def split (c : Char) : Text → List Text
  | [] => [[]]
  | x :: rest =>
    if x = c then [] :: split c rest
    else
      match split c rest with
      | [] => [[x]]
      | part :: parts => (x :: part) :: parts

theorem length_split (c : Char) (s : Text) : (split c s).length = s.count c + 1 := by
  induction s with
  | nil => rfl
  | cons x rest ih =>
    by_cases same : x = c
    · simp [split, same, ih]
    · cases parts : split c rest with
      | nil =>
        rw [parts] at ih
        cases ih
      | cons part others =>
        rw [parts] at ih
        simp [split, same, parts, ← ih]

theorem split_of_not_mem (absent : c ∉ s) : split c s = [s] := by
  induction s with
  | nil => rfl
  | cons x rest ih =>
    simp only [List.mem_cons, not_or] at absent
    simp [split, Ne.symm absent.1, ih absent.2]

theorem split_ne_nil (c : Char) (s : Text) : split c s ≠ [] := by
  intro isNil
  have length := length_split c s
  rw [isNil] at length
  cases length

theorem split_append_cons (c : Char) (s rest : Text) :
    split c (s ++ c :: rest) = split c s ++ split c rest := by
  induction s with
  | nil => exact if_pos rfl
  | cons x s ih =>
    rw [List.cons_append, split, split, ih]
    split
    · rfl
    · cases parts : split c s with
      | nil => exact absurd parts (split_ne_nil c s)
      | cons part others => rfl

theorem split_append {before : Text} (after : Text) (first : c ∉ before) :
    split c (before ++ c :: after) = before :: split c after := by
  rw [split_append_cons, split_of_not_mem first, List.singleton_append]

theorem of_mem_split {x : Char} (isPart : part ∈ split c s) (member : x ∈ part) :
    x ∈ s ∧ x ≠ c := by
  induction s generalizing part with
  | nil =>
    rw [List.mem_singleton.mp isPart] at member
    cases member
  | cons y rest ih =>
    have later : ∀ {other}, other ∈ split c rest → x ∈ other → x ∈ y :: rest ∧ x ≠ c :=
      fun isOther inOther => (ih isOther inOther).imp_left (List.mem_cons_of_mem y)
    unfold split at isPart
    split at isPart
    next =>
      rcases List.mem_cons.mp isPart with rfl | isOther
      · cases member
      · exact later isOther member
    next differs =>
      cases parts : split c rest with
      | nil => exact absurd parts (split_ne_nil c rest)
      | cons first others =>
        rw [parts] at isPart later
        rcases List.mem_cons.mp isPart with rfl | isOther
        · rcases List.mem_cons.mp member with rfl | inFirst
          · exact ⟨List.mem_cons_self, differs⟩
          · exact later List.mem_cons_self inFirst
        · exact later (List.mem_cons_of_mem _ isOther) member

theorem mem_of_mem_split {x : Char} (isPart : part ∈ split c s) (member : x ∈ part) : x ∈ s :=
  (of_mem_split isPart member).1

theorem not_mem_of_mem_split (isPart : part ∈ split c s) : c ∉ part :=
  fun member => (of_mem_split isPart member).2 rfl

def join (separator : Text) : List Text → Text
  | [] => []
  | [part] => part
  | part :: parts => part ++ separator ++ join separator parts

theorem mem_join {separator : Text}
    (member : c ∈ join separator parts) : c ∈ separator ∨ ∃ part ∈ parts, c ∈ part := by
  fun_induction join separator parts with
  | case1 => cases member
  | case2 part => exact Or.inr ⟨part, List.mem_cons_self, member⟩
  | case3 part others _ ih =>
    rcases List.mem_append.mp member with early | late
    · rcases List.mem_append.mp early with inPart | inSeparator
      · exact Or.inr ⟨part, List.mem_cons_self, inPart⟩
      · exact Or.inl inSeparator
    · rcases ih late with inSeparator | ⟨other, isOther, inOther⟩
      · exact Or.inl inSeparator
      · exact Or.inr ⟨other, List.mem_cons_of_mem _ isOther, inOther⟩

theorem join_cons {separator : Text} (more : parts ≠ []) :
    join separator (part :: parts) = part ++ separator ++ join separator parts := by
  cases parts with
  | nil => exact absurd rfl more
  | cons next others => rfl

theorem join_eq_append (c : Char) (first : Text) (more : List Text) :
    join [c] (first :: more) = first ++ more.flatMap (c :: ·) := by
  induction more generalizing first with
  | nil => exact (List.append_nil first).symm
  | cons next others ih =>
    rw [join_cons (List.cons_ne_nil _ _), ih]
    simp

theorem join_split (c : Char) (s : Text) : join [c] (split c s) = s := by
  induction s with
  | nil => rfl
  | cons x rest ih =>
    cases parts : split c rest with
    | nil => exact absurd parts (split_ne_nil c rest)
    | cons part others =>
      rw [parts] at ih
      by_cases same : x = c
      · rw [split, if_pos same, parts, join_cons (List.cons_ne_nil _ _), ih, same]
        rfl
      · rw [split, if_neg same, parts]
        cases others with
        | nil => exact congrArg (x :: ·) ih
        | cons next more => exact congrArg (x :: ·) ih

theorem split_join (some : parts ≠ [])
    (plain : ∀ part ∈ parts, c ∉ part) : split c (join [c] parts) = parts := by
  induction parts with
  | nil => exact absurd rfl some
  | cons part others ih =>
    have first := plain part List.mem_cons_self
    by_cases more : others = []
    · subst more
      exact split_of_not_mem first
    · rw [join_cons more, List.append_assoc, List.singleton_append, split_append _ first,
        ih more fun other member => plain other (List.mem_cons_of_mem _ member)]

def debugList [Unicode] (parts : List Text) : Text :=
  "[".toList ++ join ", ".toList (parts.map Unicode.debug) ++ "]".toList

/-! ## What a normalization eventually identifies -/

section Eventually

variable {α : Type} {f : α → α} {a b c : α}

/-- Repeating `f` on both sides can make them equal. -/
def EventuallyEq (f : α → α) (a b : α) : Prop := ∃ m n, f^[m] a = f^[n] b

theorem EventuallyEq.refl (f : α → α) (a : α) : EventuallyEq f a a := ⟨0, 0, rfl⟩

theorem EventuallyEq.symm : EventuallyEq f a b → EventuallyEq f b a := by
  rintro ⟨m, n, same⟩
  exact ⟨n, m, same.symm⟩

theorem EventuallyEq.trans : EventuallyEq f a b → EventuallyEq f b c → EventuallyEq f a c := by
  rintro ⟨m, n, left⟩ ⟨k, l, right⟩
  refine ⟨k + m, n + l, ?_⟩
  calc f^[k + m] a = f^[k] (f^[n] b) := by rw [Function.iterate_add_apply, left]
    _ = f^[n] (f^[k] b) := by
        rw [← Function.iterate_add_apply, Nat.add_comm, Function.iterate_add_apply]
    _ = f^[n + l] c := by rw [right, ← Function.iterate_add_apply]

theorem EventuallyEq.eq_of_fixed (left : f a = a) (right : f b = b) :
    EventuallyEq f a b → a = b := by
  rintro ⟨m, n, same⟩
  rwa [Function.iterate_fixed left, Function.iterate_fixed right] at same

theorem EventuallyEq.of_apply_eq (same : f a = f b) : EventuallyEq f a b := ⟨1, 1, same⟩

theorem EventuallyEq.apply_left (f : α → α) (a : α) : EventuallyEq f (f a) a := ⟨0, 1, rfl⟩

end Eventually

/-! ## The ASCII tables -/

def asciiIsWhitespace (c : Char) : Bool :=
  c.toNat == 32 || (decide (9 ≤ c.toNat) && decide (c.toNat ≤ 13))

/-- A letter of a plain word: ASCII and not blank. -/
def isPlain (c : Char) : Bool := decide (c.toNat < 128) && !asciiIsWhitespace c

theorem isPlain_iff : isPlain c = true ↔ c.toNat < 128 ∧ asciiIsWhitespace c = false := by
  simp [isPlain]

theorem asciiIsWhitespace_toLower (c : Char) :
    asciiIsWhitespace c.toLower = asciiIsWhitespace c := by
  unfold Char.toLower
  split
  next upper =>
    simp only [ge_iff_le, UInt32.le_iff_toNat_le] at upper
    simp [asciiIsWhitespace] at upper ⊢
    grind
  next => rfl

theorem toLower_toLower (c : Char) : c.toLower.toLower = c.toLower := by
  unfold Char.toLower
  split
  next upper =>
    split
    next shifted =>
      simp [UInt32.le_iff_toNat_le] at upper shifted
      grind
    next => rfl
  next => rfl

theorem asciiLower_asciiLower (s : Text) : asciiLower (asciiLower s) = asciiLower s := by
  rw [asciiLower, asciiLower, List.map_map]
  exact List.map_congr_left fun c _ => toLower_toLower c

theorem toLower_of_not_alpha (caseless : c.isAlpha = false) : c.toLower = c := by
  unfold Char.toLower
  split
  next upper =>
    simp only [Char.isAlpha, Char.isUpper, Bool.or_eq_false_iff,
      decide_eq_false_iff_not] at caseless
    exact absurd upper caseless.1
  next => rfl

theorem eq_of_toLower_not_alpha {d : Char} (caseless : c.isAlpha = false)
    (lowered : d.toLower = c) : d = c := by
  subst lowered
  unfold Char.toLower at caseless ⊢
  split at caseless
  next upper =>
    simp [Char.isAlpha, Char.isUpper, Char.isLower, UInt32.le_iff_toNat_le] at upper caseless
    grind
  next upper => rw [dif_neg upper]

theorem mem_of_asciiLower (caseless : c.isAlpha = false) (member : c ∈ asciiLower s) : c ∈ s := by
  obtain ⟨d, isChar, lowered⟩ := List.mem_map.mp member
  exact eq_of_toLower_not_alpha caseless lowered ▸ isChar

/-- The tables restricted to ASCII: enough to evaluate the model on concrete mail. -/
@[reducible]
def asciiTables : Unicode where
  isWhitespace := asciiIsWhitespace
  lowercase := asciiLower
  debug s := '"' :: s ++ ['"']
  lowercase_nil := rfl
  lowercase_idem := asciiLower_asciiLower
  lowercase_asciiLower := asciiLower_asciiLower
  asciiLower_lowercase := asciiLower_asciiLower
  lowercase_trim s := (trimBy_map_of_blank _ _ asciiIsWhitespace_toLower s).symm
  lowercase_at s t := by simp [asciiLower]
  at_of_lowercase _ := mem_of_asciiLower (by decide)

/-- An ASCII character that is no letter, and that lowercasing does not look past when
it looks for the end of a word. -/
def isBreak (c : Char) : Bool :=
  decide (c.toNat < 128) && !c.isAlpha && !"'.:^`".toList.contains c

theorem caseless_of_isBreak (breaks : isBreak c = true) : c.isAlpha = false := by
  simp only [isBreak, Bool.and_eq_true, Bool.not_eq_true'] at breaks
  exact breaks.1.2

/-- Tables that treat ASCII characters as ASCII does. -/
class AsciiUnicode extends Unicode where
  isWhitespace_ascii : ∀ c : Char, c.toNat < 128 → isWhitespace c = asciiIsWhitespace c
  lowercase_ascii : ∀ s : Text, (∀ c ∈ s, c.toNat < 128) → lowercase s = asciiLower s
  lowercase_break : ∀ c : Char, isBreak c = true → ∀ s t,
    lowercase (s ++ c :: t) = lowercase s ++ c :: lowercase t
  break_of_lowercase : ∀ c : Char, isBreak c = true → ∀ s, c ∈ lowercase s → c ∈ s

@[reducible]
def plainTables : AsciiUnicode where
  toUnicode := asciiTables
  isWhitespace_ascii _ _ := rfl
  lowercase_ascii _ _ := rfl
  lowercase_break c isBreak s t := by
    show asciiLower (s ++ c :: t) = asciiLower s ++ c :: asciiLower t
    simp [asciiLower, toLower_of_not_alpha (caseless_of_isBreak isBreak)]
  break_of_lowercase _ isBreak _ := mem_of_asciiLower (caseless_of_isBreak isBreak)

section

variable [AsciiUnicode]

theorem lowercase_of_ascii (ascii : ∀ c ∈ s, c.toNat < 128) : lowercase s = asciiLower s :=
  AsciiUnicode.lowercase_ascii s ascii

theorem lowercase_of_plain (plain : s.all isPlain = true) : lowercase s = asciiLower s :=
  lowercase_of_ascii fun c member => (isPlain_iff.mp (List.all_eq_true.mp plain c member)).1

theorem trim_of_plain (plain : s.all isPlain = true) : trim s = s := by
  refine trim_eq_self fun c member => ?_
  obtain ⟨ascii, solid⟩ := isPlain_iff.mp (List.all_eq_true.mp plain c member)
  rw [AsciiUnicode.isWhitespace_ascii c ascii]
  exact solid

end

end Eeemail.Lib.Texts
