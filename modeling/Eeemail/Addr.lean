import Eeemail.Lib.Texts

/-! # Addresses and names

`deltachat-contact-tools/src/lib.rs`, and `split_addr` of
`core/src/email/compose.rs`. -/

set_option autoImplicit false

namespace Eeemail.Addr

open Lib.Texts

section

variable [Unicode] {a b : Text}

/-! ## Normalizing and validating -/

def mailto : Text := "mailto:".toList

def addrNormalize (addr : Text) : Text :=
  let norm := lowercase (trim addr)
  if startsWith mailto norm then norm.drop mailto.length else norm

def addrCmp (addr1 addr2 : Text) : Bool := addrNormalize addr1 == addrNormalize addr2

structure EmailAddress where
  localPart : Text
  domain : Text
  deriving DecidableEq, Repr

def EmailAddress.new (input : Text) : Except Text EmailAddress :=
  if input.isEmpty then .error "empty string is not valid".toList
  else if input.any (fun c => Unicode.isWhitespace c || c == '<' || c == '>') then
    .error ("Email ".toList ++ Unicode.debug input ++
      " must not contain whitespaces, '>' or '<'".toList)
  else
    match rsplitOnce '@' input with
    | none =>
      .error ("Email ".toList ++ Unicode.debug input ++ " must contain '@' character".toList)
    | some (localPart, domain) =>
      if localPart.isEmpty then
        .error ("empty string is not valid for local part in ".toList ++ Unicode.debug input)
      else if domain.isEmpty then
        .error ("missing domain after '@' in ".toList ++ Unicode.debug input)
      else if domain.getLast? = some '.' then
        .error ("Domain ".toList ++ Unicode.debug domain ++
          " should not contain the dot in the end".toList)
      else .ok { localPart, domain }

def mayBeValidAddr (addr : Text) : Bool := (EmailAddress.new addr).isOk

def contactAddress (s : Text) : Except Text Text :=
  if mayBeValidAddr (addrNormalize s) then .ok (addrNormalize s)
  else .error ("invalid address ".toList ++ Unicode.debug s)

theorem contactAddress_eq_ok {s addr : Text} (valid : contactAddress s = .ok addr) :
    addr = addrNormalize s ∧ mayBeValidAddr addr = true := by
  unfold contactAddress at valid
  split at valid
  next accepted =>
    injection valid with same
    subst same
    exact ⟨rfl, accepted⟩
  next => cases valid

theorem addrNormalize_eq_of_lowercase_eq {s t : Text} (same : lowercase s = lowercase t) :
    addrNormalize s = addrNormalize t := by
  simp only [addrNormalize, lowercase_trim, same]

theorem addrNormalize_eq_of_nocaseEq {s t : Text} (same : nocaseEq s t = true) :
    addrNormalize s = addrNormalize t :=
  addrNormalize_eq_of_lowercase_eq (lowercase_eq_of_nocaseEq same)

/-- Two spellings of one address: normalizing them, however often, can make
them equal.  `addr_normalize` takes off one `mailto:` a time, and the send path
normalizes an address more than once, so this is what "the same address" comes
to there. -/
def SameAddr (a b : Text) : Prop := EventuallyEq addrNormalize a b

theorem SameAddr.of_addrNormalize_eq (same : addrNormalize a = addrNormalize b) :
    SameAddr a b :=
  EventuallyEq.of_apply_eq same

theorem SameAddr.of_lowercase_eq (same : lowercase a = lowercase b) : SameAddr a b :=
  .of_addrNormalize_eq (addrNormalize_eq_of_lowercase_eq same)

theorem SameAddr.of_nocaseEq (same : nocaseEq a b = true) : SameAddr a b :=
  .of_addrNormalize_eq (addrNormalize_eq_of_nocaseEq same)

theorem SameAddr.refl (a : Text) : SameAddr a a := EventuallyEq.refl _ a

theorem SameAddr.symm (same : SameAddr a b) : SameAddr b a :=
  EventuallyEq.symm same

theorem SameAddr.trans {c : Text} (left : SameAddr a b) (right : SameAddr b c) : SameAddr a c :=
  EventuallyEq.trans left right

theorem SameAddr.addrNormalize_left (a : Text) : SameAddr (addrNormalize a) a :=
  EventuallyEq.apply_left _ a

theorem SameAddr.eq_of_normal (left : addrNormalize a = a)
    (right : addrNormalize b = b) (same : SameAddr a b) : a = b :=
  EventuallyEq.eq_of_fixed left right same

def splitAddr (input : Text) : Text × Text :=
  match rsplitOnce '<' input with
  | some (name, rest) =>
    match rsplitOnce '>' rest with
    | some (addr, _) => (trimBy (· == '"') (trim name), trim addr)
    | none => ([], input)
  | none => ([], input)

/-! ## Display names -/

def rtloCharacters : List Char :=
  [Char.ofNat 0x202A, Char.ofNat 0x202B, Char.ofNat 0x202C, Char.ofNat 0x202D, Char.ofNat 0x202E]

def isolateCharacters : List Char :=
  [Char.ofNat 0x2066, Char.ofNat 0x2067, Char.ofNat 0x2068]

def popIsolateCharacter : Char := Char.ofNat 0x2069

def isolateCharactersAreValid (nesting : Int) : Text → Bool
  | [] => nesting == 0
  | c :: rest =>
    let nesting :=
      if isolateCharacters.contains c then nesting + 1
      else if c == popIsolateCharacter then nesting - 1
      else nesting
    if nesting < 0 ∨ nesting > 125 then false else isolateCharactersAreValid nesting rest

def sanitizeBidiCharacters (input : Text) : Text :=
  let input := input.filter (fun c => !rtloCharacters.contains c)
  if isolateCharactersAreValid 0 input then input
  else input.filter (fun c => !(isolateCharacters.contains c || c == popIsolateCharacter))

def sanitizeSingleLine (input : Text) : Text :=
  sanitizeBidiCharacters (trim (input.map fun c => if c == '\n' || c == '\r' then ' ' else c))

def enclosed (name : Text) (opening closing : Char) : Bool :=
  2 ≤ name.length && name.head? == some opening && name.getLast? == some closing

def sanitizeName (name : Text) : Text :=
  let name := sanitizeSingleLine name
  if enclosed name '\'' '\'' || enclosed name '"' '"' || enclosed name '<' '>' then
    trim name.tail.dropLast
  else name

end

section

local instance : Unicode := asciiTables

example : splitAddr "Bob <Bob@Example.net>".toList = ("Bob".toList, "Bob@Example.net".toList) := by
  decide

example : addrNormalize " mailto:Bob@Example.net".toList = "bob@example.net".toList := by decide

end

end Eeemail.Addr
