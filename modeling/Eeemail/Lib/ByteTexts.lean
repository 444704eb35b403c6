import Eeemail.Lib.Texts

/-! # Texts as bytes

An ASCII byte in the encoding of a text is a character of its own, so that a
text can be cut before and after it.  The rest is about searching bytes for a
word, however it is capitalised. -/

set_option autoImplicit false

namespace Eeemail.Lib.ByteTexts

open Texts

abbrev Bytes := List UInt8

def bytes (s : Text) : Bytes := s.flatMap String.utf8EncodeChar

/-- The text before and after so many bytes, unless that is inside a character. -/
def splitAtByte : Text → Nat → Option (Text × Text)
  | s, 0 => some ([], s)
  | [], _ + 1 => none
  | c :: rest, n + 1 =>
    if c.utf8Size ≤ n + 1 then
      (splitAtByte rest (n + 1 - c.utf8Size)).map fun parts => (c :: parts.1, parts.2)
    else none

def slice (s : Text) (start stop : Nat) : Option Text :=
  if start ≤ stop then
    (splitAtByte s start).bind fun parts => (splitAtByte parts.2 (stop - start)).map (·.1)
  else none

@[simp] theorem bytes_cons (c : Char) (s : Text) :
    bytes (c :: s) = String.utf8EncodeChar c ++ bytes s := rfl

@[simp] theorem bytes_append (s t : Text) : bytes (s ++ t) = bytes s ++ bytes t :=
  List.flatMap_append

theorem splitAtByte_append (s t : Text) : splitAtByte (s ++ t) (bytes s).length = some (s, t) := by
  induction s with
  | nil => cases t <;> rfl
  | cons c s ih =>
    have size := c.utf8Size_pos
    obtain ⟨n, isSucc⟩ : ∃ n, (bytes (c :: s)).length = n + 1 :=
      ⟨_, (Nat.succ_pred (by simp; omega)).symm⟩
    have tail : n + 1 - c.utf8Size = (bytes s).length := by
      simp at isSucc
      omega
    have fits : c.utf8Size ≤ n + 1 := by simp at isSucc; omega
    rw [isSucc, List.cons_append, splitAtByte, if_pos fits, tail, ih]
    rfl

theorem slice_append (before s after : Text) :
    slice (before ++ s ++ after) (bytes before).length (bytes (before ++ s)).length = some s := by
  rw [slice, bytes_append, List.length_append, if_pos (Nat.le_add_right _ _), List.append_assoc,
    splitAtByte_append, Nat.add_sub_cancel_left]
  simp [splitAtByte_append]

theorem utf8EncodeChar_cases (c : Char) :
    (∃ b, String.utf8EncodeChar c = [b]) ∨ ∀ b ∈ String.utf8EncodeChar c, 128 ≤ b.toNat := by
  unfold String.utf8EncodeChar
  by_cases isAscii : c.val.toNat ≤ 127
  · exact Or.inl ⟨_, if_pos isAscii⟩
  · refine Or.inr ?_
    rw [if_neg isAscii]
    split_ifs <;> simp <;> omega

theorem exists_char_of_ascii {s : Text} {front back : Bytes} {b : UInt8} (isAscii : b.toNat < 128)
    (whole : bytes s = front ++ b :: back) :
    ∃ before c after, s = before ++ c :: after ∧ bytes before = front ∧
      String.utf8EncodeChar c = [b] ∧ bytes after = back := by
  induction s generalizing front with
  | nil => simp [bytes] at whole
  | cons c s ih =>
    rw [bytes_cons] at whole
    rcases List.append_eq_append_iff.mp whole with ⟨more, rfl, later⟩ | ⟨more, isChar, later⟩
    · obtain ⟨before, d, after, rfl, rfl, isByte, rfl⟩ := ih later
      exact ⟨c :: before, d, after, rfl, rfl, isByte, rfl⟩
    · cases more with
      | nil =>
        obtain ⟨before, d, after, rfl, isFront, isByte, rfl⟩ := @ih [] later.symm
        exact ⟨c :: before, d, after, rfl, by simp [isFront, isChar], isByte, rfl⟩
      | cons first more =>
        obtain ⟨rfl, rfl⟩ := List.cons.inj later
        rcases utf8EncodeChar_cases c with ⟨single, isSingle⟩ | areHigh
        · rw [isSingle] at isChar
          cases front with
          | nil =>
            obtain ⟨rfl, rfl⟩ := List.cons.inj isChar
            exact ⟨[], c, s, rfl, rfl, isSingle, rfl⟩
          | cons x front => simp at isChar
        · have := areHigh b (by simp [isChar])
          omega

theorem exists_slice {s : Text} {front body back : Bytes} {a b : UInt8} (first : a.toNat < 128)
    (second : b.toNat < 128) (whole : bytes s = front ++ a :: (body ++ b :: back)) :
    ∃ text, slice s (front ++ [a]).length (front ++ [a] ++ body).length = some text ∧
      bytes text = body := by
  obtain ⟨before, c, rest, rfl, rfl, isFirst, isRest⟩ := exists_char_of_ascii first whole
  obtain ⟨text, d, after, rfl, rfl, _, _⟩ := exists_char_of_ascii second isRest
  have found := slice_append (before ++ [c]) text (d :: after)
  have single : bytes [c] = [a] := by rw [bytes_cons, isFirst]; rfl
  rw [bytes_append _ text, bytes_append, single, List.append_assoc, List.append_assoc] at found
  exact ⟨text, found, rfl⟩

/-! ## Searching -/

def lowerByte (b : UInt8) : UInt8 := if 65 ≤ b ∧ b ≤ 90 then b + 32 else b

variable {word front back s : Bytes}

/-- The bytes before a word and from there on. -/
def cut (word : Bytes) : Bytes → Option (Bytes × Bytes)
  | [] => none
  | b :: rest =>
    if word.isPrefixOf ((b :: rest).map lowerByte) then some ([], b :: rest)
    else (cut word rest).map fun parts => (b :: parts.1, parts.2)

/-- Between the two the word begins, and it does not begin before. -/
def FirstAt (word front back : Bytes) : Prop :=
  word <+: back.map lowerByte ∧
    ∀ more, more <:+ front ++ back → word <+: more.map lowerByte → more.length ≤ back.length

theorem FirstAt.within (first : FirstAt word front back) :
    word <:+: (front ++ back).map lowerByte := by
  rw [List.map_append]
  exact first.1.isInfix.trans (List.suffix_append _ _).isInfix

theorem FirstAt.unique {front' back' : Bytes} (first : FirstAt word front back)
    (other : FirstAt word front' back') (same : front ++ back = front' ++ back') :
    front = front' ∧ back = back' := by
  have longer := first.2 back' (same ▸ List.suffix_append _ _) other.1
  have shorter := other.2 back (same ▸ List.suffix_append _ _) first.1
  exact List.append_inj' same (by omega)

theorem FirstAt.eq_cons {b : UInt8} (first : FirstAt word front back) (isHead : word.head? = some b)
    (noLetter : ∀ a, lowerByte a = b → a = b) : ∃ after, back = b :: after := by
  obtain ⟨rest, rfl⟩ := List.head?_eq_some_iff.mp isHead
  cases back with
  | nil => simp [FirstAt] at first
  | cons a after => exact ⟨after, by rw [noLetter a (List.cons_prefix_cons.mp first.1).1.symm]⟩

theorem cut_eq_some (isCut : cut word s = some (front, back)) :
    s = front ++ back ∧ FirstAt word front back := by
  induction s generalizing front with
  | nil => cases isCut
  | cons b s ih =>
    rw [cut] at isCut
    split at isCut
    next here =>
      cases isCut
      exact ⟨rfl, List.isPrefixOf_iff_prefix.mp here, fun more isEnd _ => isEnd.length_le⟩
    next notHere =>
      obtain ⟨⟨front, rest⟩, later, parts⟩ := Option.map_eq_some_iff.mp isCut
      cases parts
      obtain ⟨rfl, here, first⟩ := ih later
      refine ⟨rfl, here, fun more isEnd begins => ?_⟩
      rcases List.suffix_cons_iff.mp isEnd with rfl | isEnd
      · exact absurd (List.isPrefixOf_iff_prefix.mpr begins) notHere
      · exact first more isEnd begins

theorem not_infix_of_cut_eq_none (nonempty : word ≠ []) (isCut : cut word s = none) :
    ¬word <:+: s.map lowerByte := by
  induction s with
  | nil => simpa using nonempty
  | cons b s ih =>
    rw [cut] at isCut
    split at isCut
    next here => cases isCut
    next notHere =>
      rw [Option.map_eq_none_iff] at isCut
      intro within
      rcases List.infix_cons_iff.mp within with begins | within
      · exact notHere (List.isPrefixOf_iff_prefix.mpr begins)
      · exact ih isCut within

theorem prefix_of_prefix_append {b : UInt8} (absent : b ∉ word) (begins : word <+: s ++ b :: back) :
    word <+: s := by
  rcases Nat.lt_or_ge s.length word.length with short | long
  · have whole : s ++ [b] <+: word :=
      List.prefix_of_prefix_length_le ⟨back, by simp⟩ begins (by simpa using short)
    exact absurd (whole.subset (by simp)) absent
  · exact List.prefix_of_prefix_length_le begins (List.prefix_append _ _) long

end Eeemail.Lib.ByteTexts
