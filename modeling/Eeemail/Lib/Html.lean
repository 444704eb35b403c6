import Eeemail.Lib.Texts

/-! # Text in markup

Text that is written into markup is escaped: the characters that mean something
there are replaced by character references, one after the other.  Reading the
markup decodes the references. -/

set_option autoImplicit false

namespace Eeemail.Lib.Html

open Lib.Texts

/-! ## Replacing a character -/

def replaceAll (c : Char) (replacement : Text) (s : Text) : Text :=
  s.flatMap fun x => if x = c then replacement else [x]

@[simp]
theorem replaceAll_nil (c : Char) (replacement : Text) : replaceAll c replacement [] = [] := rfl

theorem replaceAll_cons (c x : Char) (replacement s : Text) :
    replaceAll c replacement (x :: s) =
      (if x = c then replacement else [x]) ++ replaceAll c replacement s :=
  List.flatMap_cons

theorem replaceAll_append (c : Char) (replacement s t : Text) :
    replaceAll c replacement (s ++ t) = replaceAll c replacement s ++ replaceAll c replacement t :=
  List.flatMap_append

variable {c : Char} {s : Text}

theorem replaceAll_of_not_mem {replacement : Text} (absent : c ∉ s) :
    replaceAll c replacement s = s := by
  induction s with
  | nil => rfl
  | cons x rest ih =>
    rw [replaceAll_cons, if_neg (Ne.symm (List.ne_of_not_mem_cons absent)),
      ih (List.not_mem_of_not_mem_cons absent)]
    rfl

theorem mem_replaceAll {x : Char} {replacement : Text} :
    x ∈ replaceAll c replacement s ↔ (x ∈ s ∧ x ≠ c) ∨ (c ∈ s ∧ x ∈ replacement) := by
  simp only [replaceAll, List.mem_flatMap]
  constructor
  · rintro ⟨y, member, within⟩
    split at within
    next same =>
      subst same
      exact Or.inr ⟨member, within⟩
    next differs =>
      rw [List.mem_singleton.mp within]
      exact Or.inl ⟨member, differs⟩
  · rintro (⟨member, differs⟩ | ⟨member, within⟩)
    · exact ⟨x, member, by simp [differs]⟩
    · exact ⟨c, member, by simpa using within⟩

/-! ## Escaping -/

def escapeMarkup (s : Text) : Text :=
  replaceAll '"' "&quot;".toList
    (replaceAll '>' "&gt;".toList (replaceAll '<' "&lt;".toList (replaceAll '&' "&amp;".toList s)))

def escaped (c : Char) : Text :=
  if c = '&' then "&amp;".toList
  else if c = '<' then "&lt;".toList
  else if c = '>' then "&gt;".toList
  else if c = '"' then "&quot;".toList
  else [c]

theorem escapeMarkup_singleton (c : Char) : escapeMarkup [c] = escaped c := by
  unfold escaped
  split_ifs with isAmp isLt isGt isQuote
  · subst isAmp
    decide
  · subst isLt
    decide
  · subst isGt
    decide
  · subst isQuote
    decide
  · have kept : ∀ (d : Char) (replacement : Text), c ≠ d → replaceAll d replacement [c] = [c] :=
      fun d replacement differs => replaceAll_of_not_mem (by simpa using Ne.symm differs)
    rw [escapeMarkup, kept _ _ isAmp, kept _ _ isLt, kept _ _ isGt, kept _ _ isQuote]

@[simp]
theorem escapeMarkup_nil : escapeMarkup [] = [] := rfl

theorem escapeMarkup_append (s t : Text) :
    escapeMarkup (s ++ t) = escapeMarkup s ++ escapeMarkup t := by
  simp only [escapeMarkup, replaceAll_append]

theorem escapeMarkup_cons (c : Char) (s : Text) :
    escapeMarkup (c :: s) = escaped c ++ escapeMarkup s := by
  rw [← List.singleton_append, escapeMarkup_append, escapeMarkup_singleton]

theorem escapeMarkup_eq_cons {mid : Text} (plain : c ≠ '&')
    (same : escapeMarkup s = c :: mid) : ∃ rest, s = c :: rest ∧ mid = escapeMarkup rest := by
  cases s with
  | nil => cases same
  | cons d rest =>
    rw [escapeMarkup_cons] at same
    unfold escaped at same
    split_ifs at same
    · exact absurd (List.cons.inj same).1.symm plain
    · exact absurd (List.cons.inj same).1.symm plain
    · exact absurd (List.cons.inj same).1.symm plain
    · exact absurd (List.cons.inj same).1.symm plain
    · obtain ⟨rfl, isRest⟩ := List.cons.inj same
      exact ⟨rest, rfl, isRest.symm⟩

theorem escapeMarkup_eq_concat {mid : Text} (plain : c ≠ ';')
    (same : escapeMarkup s = mid ++ [c]) : ∃ rest, s = rest ++ [c] ∧ mid = escapeMarkup rest := by
  rcases List.eq_nil_or_concat s with rfl | ⟨rest, d, rfl⟩
  · exact absurd same.symm (by simp)
  · have entity (word : Text) : escapeMarkup rest ++ (word ++ [';']) ≠ mid ++ [c] := by
      intro ended
      rw [← List.append_assoc] at ended
      exact plain (List.cons.inj (List.append_inj_right' ended rfl)).1.symm
    rw [List.concat_eq_append, escapeMarkup_append, escapeMarkup_singleton] at same
    unfold escaped at same
    split_ifs at same
    · exact absurd same (entity "&amp".toList)
    · exact absurd same (entity "&lt".toList)
    · exact absurd same (entity "&gt".toList)
    · exact absurd same (entity "&quot".toList)
    · obtain ⟨isRest, isLast⟩ := List.append_inj' same rfl
      rw [(List.cons.inj isLast).1]
      exact ⟨rest, List.concat_eq_append, isRest.symm⟩

theorem escapeMarkup_eq_append {front mid back : Text} (plainFront : '&' ∉ front)
    (plainBack : ';' ∉ back) (same : escapeMarkup s = front ++ mid ++ back) :
    ∃ core, s = front ++ core ++ back ∧ mid = escapeMarkup core := by
  induction front generalizing s with
  | nil =>
    rw [List.nil_append] at same
    induction back using List.reverseRecOn generalizing s with
    | nil =>
      rw [List.append_nil] at same
      exact ⟨s, by simp, same.symm⟩
    | append_singleton earlier c ih =>
      rw [List.mem_append, not_or, List.mem_singleton] at plainBack
      rw [← List.append_assoc] at same
      obtain ⟨rest, rfl, isRest⟩ := escapeMarkup_eq_concat (Ne.symm plainBack.2) same
      obtain ⟨core, rfl, isCore⟩ := ih plainBack.1 isRest.symm
      exact ⟨core, by simp, isCore⟩
  | cons c others ih =>
    rw [List.mem_cons, not_or] at plainFront
    obtain ⟨rest, rfl, isRest⟩ := escapeMarkup_eq_cons (Ne.symm plainFront.1) same
    obtain ⟨core, rfl, isCore⟩ := ih plainFront.2 isRest.symm
    exact ⟨core, rfl, isCore⟩

def decode : Text → Text
  | '&' :: 'a' :: 'm' :: 'p' :: ';' :: rest => '&' :: decode rest
  | '&' :: 'l' :: 't' :: ';' :: rest => '<' :: decode rest
  | '&' :: 'g' :: 't' :: ';' :: rest => '>' :: decode rest
  | '&' :: 'q' :: 'u' :: 'o' :: 't' :: ';' :: rest => '"' :: decode rest
  | '&' :: '#' :: '3' :: '9' :: ';' :: rest => '\x27' :: decode rest
  | c :: rest => c :: decode rest
  | [] => []

theorem decode_cons_of_ne (plain : c ≠ '&') (rest : Text) :
    decode (c :: rest) = c :: decode rest := by
  simp [decode, plain]

theorem decode_escaped (c : Char) (rest : Text) :
    decode (escaped c ++ rest) = c :: decode rest := by
  unfold escaped
  split_ifs with isAmp isLt isGt isQuote
  · subst isAmp
    rfl
  · subst isLt
    rfl
  · subst isGt
    rfl
  · subst isQuote
    rfl
  · exact decode_cons_of_ne isAmp rest

theorem decode_escapeMarkup (s : Text) : decode (escapeMarkup s) = s := by
  induction s with
  | nil => rfl
  | cons c rest ih => rw [escapeMarkup_cons, decode_escaped, ih]

end Eeemail.Lib.Html
