import Eeemail.Recipients
import Eeemail.Addr
import Eeemail.Desktop.Fields

/-! # Replies

Who a reply is addressed to: `openComposer` of `desktop/src/actions.ts` collects
the addresses and joins them into the fields of the composer, and the composer
of `desktop/src/views/composer.ts` splits the fields again when the message is
sent.  The way through the fields is faithful unless an address has a comma, a
line break or a null character in it, and nothing is sent when no `To` address
is left. -/

set_option autoImplicit false

namespace Eeemail.Desktop.Replies

open Lib.Texts Store Recipients Addr Desktop.Fields

variable {addr : Text}

section

variable [Unicode]

/-! ## Opening the composer -/

def keyOf (addr : Text) : Text := lowercase (jsTrim addr)

def keepNew : List Text → List Text → List Text
  | _, [] => []
  | seen, addr :: rest =>
    if (keyOf addr).isEmpty || seen.contains (keyOf addr) then keepNew seen rest
    else jsTrim addr :: keepNew (keyOf addr :: seen) rest

def addresses (addrs exclude : List Text) : List Text := keepNew (exclude.map lowercase) addrs

structure Original where
  /-- Whether the sender is the account itself. -/
  outgoing : Bool
  sender : Text
  self : Text
  recipients : List Recipient

def Original.header (original : Original) (kind : RecipientKind) : List Text :=
  (original.recipients.filter fun recipient => recipient.kind == kind).map (·.addr)

def Original.primary (original : Original) (all : Bool) : List Text :=
  if original.outgoing then original.header .to
  else if all then original.sender :: original.header .to
  else [original.sender]

def Original.copies (original : Original) (all : Bool) : List Text :=
  if all then original.header .cc else []

def Original.toList (original : Original) (all : Bool) : List Text :=
  addresses (original.primary all) [original.self]

def Original.ccList (original : Original) (all : Bool) : List Text :=
  if all then addresses (original.header .cc) (original.self :: original.toList all) else []

structure AddressFields where
  toField : Text
  ccField : Text
  bccField : Text
  deriving DecidableEq, Repr

def openComposer (original : Original) (all : Bool) : AddressFields where
  toField := join ", ".toList (original.toList all)
  ccField := join ", ".toList (original.ccList all)
  bccField := []

/-- `addresses` of `composer.ts`: splits a field at its commas. -/
def splitField (value : Text) : List Text :=
  ((split ',' value).map jsTrim).filter fun addr => !addr.isEmpty

/-- `readSet`, on fields that nobody touched since they were drawn. -/
def readSet (fields : AddressFields) : RecipientSet where
  toAddrs := splitField (inputValue (escapeHtml fields.toField))
  ccAddrs := splitField (inputValue (escapeHtml fields.ccField))
  bccAddrs := splitField (inputValue (escapeHtml fields.bccField))

/-- The submit handler: a message without a `To` address is refused, and so is one that
the padlock holds back, `blocked` being what `blocked()` returns. -/
def submit (blocked : Bool) (fields : AddressFields) : Option RecipientSet :=
  if (readSet fields).toAddrs.isEmpty then none
  else if blocked then none
  else some (readSet fields)

def sendUntouched (original : Original) (all : Bool) : Option RecipientSet :=
  submit false (openComposer original all)

/-- An address the reply should go to: the sender, or for the user's own mail its
`To`, and for a reply to all everybody else it was addressed to, but never the
user. -/
def Wanted (original : Original) (all : Bool) (key : Text) : Prop :=
  key ∈ (original.primary all ++ original.copies all).map keyOf ∧ key ≠ [] ∧
    key ≠ lowercase original.self

instance (original : Original) (all : Bool) (key : Text) : Decidable (Wanted original all key) :=
  inferInstanceAs (Decidable (_ ∧ _ ∧ _))

structure AddressesExactly (original : Original) (all : Bool) (set : RecipientSet) : Prop where
  once : ((set.toAddrs ++ set.ccAddrs).map keyOf).Nodup
  exactly : ∀ key, key ∈ (set.toAddrs ++ set.ccAddrs).map keyOf ↔ Wanted original all key
  noBcc : set.bccAddrs = []

theorem keyOf_jsTrim (addr : Text) : keyOf (jsTrim addr) = keyOf addr := by
  rw [keyOf, jsTrim_jsTrim, keyOf]

theorem mem_map_keepNew {seen addrs : List Text} {key : Text} :
    key ∈ (keepNew seen addrs).map keyOf ↔ key ∈ addrs.map keyOf ∧ key ≠ [] ∧ key ∉ seen := by
  induction addrs generalizing seen with
  | nil => simp [keepNew]
  | cons addr rest ih =>
    unfold keepNew
    split
    next skipped =>
      have known : keyOf addr = [] ∨ keyOf addr ∈ seen := by simpa using skipped
      rw [ih, List.map_cons, List.mem_cons]
      constructor
      · rintro ⟨member, fresh⟩
        exact ⟨Or.inr member, fresh⟩
      · rintro ⟨isFirst | member, notEmpty, fresh⟩
        · rcases known with isEmpty | isSeen
          · exact absurd (isFirst.trans isEmpty) notEmpty
          · exact absurd (isFirst ▸ isSeen) fresh
        · exact ⟨member, notEmpty, fresh⟩
    next isNew =>
      have new : keyOf addr ≠ [] ∧ keyOf addr ∉ seen := by simpa using isNew
      rw [List.map_cons, List.mem_cons, ih, keyOf_jsTrim, List.map_cons, List.mem_cons,
        List.mem_cons]
      constructor
      · rintro (isFirst | ⟨member, notEmpty, fresh⟩)
        · rw [isFirst]
          exact ⟨Or.inl rfl, new⟩
        · exact ⟨Or.inr member, notEmpty, fun isSeen => fresh (Or.inr isSeen)⟩
      · rintro ⟨isFirst | member, notEmpty, fresh⟩
        · exact Or.inl isFirst
        · by_cases isFirst : key = keyOf addr
          · exact Or.inl isFirst
          · exact Or.inr ⟨member, notEmpty, fun either => either.elim isFirst fresh⟩

theorem nodup_map_keepNew (seen addrs : List Text) : ((keepNew seen addrs).map keyOf).Nodup := by
  induction addrs generalizing seen with
  | nil => exact List.nodup_nil
  | cons addr rest ih =>
    unfold keepNew
    split
    next => exact ih seen
    next =>
      rw [List.map_cons, List.nodup_cons, keyOf_jsTrim]
      exact ⟨fun again => (mem_map_keepNew.mp again).2.2 List.mem_cons_self, ih _⟩

theorem jsTrim_of_mem_keepNew {seen addrs : List Text}
    (member : addr ∈ keepNew seen addrs) : jsTrim addr = addr := by
  induction addrs generalizing seen with
  | nil => cases member
  | cons first rest ih =>
    unfold keepNew at member
    split at member
    next => exact ih member
    next =>
      rcases List.mem_cons.mp member with isFirst | later
      · rw [isFirst, jsTrim_jsTrim]
      · exact ih later

variable (original : Original) (all : Bool)

theorem jsTrim_of_mem_reply
    (member : addr ∈ original.toList all ++ original.ccList all) : jsTrim addr = addr := by
  rcases List.mem_append.mp member with isTo | isCc
  · exact jsTrim_of_mem_keepNew isTo
  · unfold Original.ccList at isCc
    split at isCc
    next => exact jsTrim_of_mem_keepNew isCc
    next => cases isCc

theorem mem_keys_toList {key : Text} :
    key ∈ (original.toList all).map keyOf ↔
      key ∈ (original.primary all).map keyOf ∧ key ≠ [] ∧ key ≠ lowercase original.self := by
  rw [Original.toList, addresses, mem_map_keepNew]
  simp

theorem mem_keys_ccList {key : Text} :
    key ∈ (original.ccList all).map keyOf ↔
      key ∈ (original.copies all).map keyOf ∧ key ≠ [] ∧ key ≠ lowercase original.self ∧
        key ∉ (original.toList all).map keyOf := by
  unfold Original.ccList Original.copies
  cases all with
  | false => simp
  | true =>
    have sameKeys : (original.toList true).map lowercase = (original.toList true).map keyOf := by
      refine List.map_congr_left fun addr member => ?_
      rw [keyOf, jsTrim_of_mem_keepNew member]
    simp only [if_true, addresses, List.map_cons]
    rw [mem_map_keepNew, sameKeys, List.mem_cons, not_or]

theorem keys_of_reply : ((original.toList all ++ original.ccList all).map keyOf).Nodup ∧
      ∀ key, key ∈ (original.toList all ++ original.ccList all).map keyOf ↔
        Wanted original all key := by
  constructor
  · rw [List.map_append]
    refine List.nodup_append.mpr ⟨nodup_map_keepNew _ _, ?_, ?_⟩
    · unfold Original.ccList
      split
      next => exact nodup_map_keepNew _ _
      next => exact List.nodup_nil
    · rintro key isTo other isCc rfl
      exact ((mem_keys_ccList original all).mp isCc).2.2.2 isTo
  · intro key
    rw [List.map_append, List.mem_append, mem_keys_toList, mem_keys_ccList, mem_keys_toList, Wanted,
      List.map_append, List.mem_append]
    tauto

end

/-! ## Through the fields -/

theorem splitField_space_cons (s : Text) : splitField (' ' :: s) = splitField s := by
  have same : (split ',' (' ' :: s)).map jsTrim = (split ',' s).map jsTrim := by
    cases parts : split ',' s with
    | nil => exact absurd parts (split_ne_nil ',' s)
    | cons part others =>
      rw [split, if_neg (by decide), parts]
      exact congrArg (· :: others.map jsTrim) (jsTrim_space_cons part)
  rw [splitField, same, splitField]

theorem splitField_join {parts : List Text} (plain : ∀ part ∈ parts, ',' ∉ part) :
    splitField (join ", ".toList parts) =
      (parts.map jsTrim).filter fun addr => !addr.isEmpty := by
  fun_induction join ", ".toList parts with
  | case1 => rfl
  | case2 part => rw [splitField, split_of_not_mem (plain part List.mem_cons_self)]
  | case3 part others _ ih =>
    have later := ih fun other member => plain other (List.mem_cons_of_mem _ member)
    have opened : part ++ ", ".toList ++ join ", ".toList others =
        part ++ ',' :: ' ' :: join ", ".toList others := by
      rw [List.append_assoc]
      rfl
    rw [← splitField_space_cons, splitField] at later
    rw [opened, splitField, split_append _ (plain part List.mem_cons_self), List.map_cons,
      List.map_cons, List.filter_cons, List.filter_cons, later]

theorem submit_eq_some {blocked : Bool} {fields : AddressFields} {set : RecipientSet} :
    submit blocked fields = some set ↔
      readSet fields = set ∧ (readSet fields).toAddrs ≠ [] ∧ blocked = false := by
  generalize isRead : readSet fields = read
  rw [submit, isRead]
  by_cases noTo : read.toAddrs = []
  · simp [noTo]
  · simp [noTo, and_comm]

/-- A character that an address does not keep on its way through a field. -/
def isLost (c : Char) : Bool := c == ',' || isUnheld c

theorem splitField_inputValue_join {parts : List Text}
    (trimmed : ∀ part ∈ parts, jsTrim part = part ∧ part ≠ [])
    (kept : ∀ part ∈ parts, ∀ c ∈ part, isLost c = false) :
    splitField (inputValue (escapeHtml (join ", ".toList parts))) = parts := by
  have plain : ∀ part ∈ parts, ',' ∉ part :=
    fun part member isComma => absurd (kept part member ',' isComma) (by decide)
  have unchanged : parts.map jsTrim = parts := by
    conv_rhs => rw [← List.map_id parts]
    exact List.map_congr_left fun part member => (trimmed part member).1
  rw [inputValue_escapeHtml, splitField_join plain, unchanged, List.filter_eq_self]
  · intro part member
    simpa using (trimmed part member).2
  · intro c member
    rcases mem_join member with isSeparator | ⟨part, isPart, inPart⟩
    · have separator : ", ".toList.all (fun c => !isUnheld c) = true := by decide
      simpa using List.all_eq_true.mp separator c isSeparator
    · have unlost := kept part isPart c inPart
      simp only [isLost, Bool.or_eq_false_iff] at unlost
      exact unlost.2

theorem kept_of_mem_splitField {markup : Text}
    (member : addr ∈ splitField (inputValue markup)) : ∀ c ∈ addr, isLost c = false := by
  intro c inAddr
  obtain ⟨part, isPart, rfl⟩ := List.mem_map.mp (List.mem_filter.mp member).1
  have inPart := mem_of_mem_jsTrim inAddr
  have notComma : c ≠ ',' := fun isComma => not_mem_of_mem_split isPart (isComma ▸ inPart)
  simp [isLost, notComma, held_of_mem_inputValue (mem_of_mem_split isPart inPart)]

theorem kept_of_mem_readSet {fields : AddressFields}
    (member : addr ∈ (readSet fields).toAddrs ++ (readSet fields).ccAddrs) :
    ∀ c ∈ addr, isLost c = false := by
  simp only [readSet, List.mem_append] at member
  rcases member with isTo | isCc
  · exact kept_of_mem_splitField isTo
  · exact kept_of_mem_splitField isCc

section

variable [AsciiUnicode] (original : Original) (all : Bool)

theorem mem_keyOf_of_isLost {c : Char} (lost : isLost c = true) :
    c ∈ keyOf addr ↔ c ∈ jsTrim addr := by
  have breaks : isBreak c = true := by
    simp only [isLost, isUnheld, isNewline, Bool.or_eq_true, beq_iff_eq] at lost
    rcases lost with rfl | (rfl | rfl) | rfl <;> decide
  refine ⟨AsciiUnicode.break_of_lowercase c breaks _, fun member => ?_⟩
  obtain ⟨before, after, isParts⟩ := List.append_of_mem member
  rw [keyOf, isParts, lowercase, AsciiUnicode.lowercase_break c breaks]
  exact List.mem_append_right _ List.mem_cons_self

/-- No address that the reply is for has a comma, a line break or a null character. -/
def Separable : Prop := ∀ key, Wanted original all key → ∀ c ∈ key, isLost c = false

def Addressed : Prop :=
  ∃ key ∈ (original.primary all).map keyOf, key ≠ [] ∧ key ≠ lowercase original.self

variable {original all}

theorem kept_of_separable (separable : Separable original all)
    (member : addr ∈ original.toList all ++ original.ccList all) :
    (jsTrim addr = addr ∧ addr ≠ []) ∧ ∀ c ∈ addr, isLost c = false := by
  have trimmed := jsTrim_of_mem_reply original all member
  have wanted : Wanted original all (keyOf addr) :=
    ((keys_of_reply original all).2 _).mp (List.mem_map_of_mem member)
  refine ⟨⟨trimmed, ?_⟩, fun c inAddr => ?_⟩
  · rintro rfl
    exact wanted.2.1 Unicode.lowercase_nil
  · by_contra isLost
    rw [Bool.not_eq_false] at isLost
    have inKey : c ∈ keyOf addr := by
      rw [mem_keyOf_of_isLost isLost, trimmed]
      exact inAddr
    rw [separable _ wanted c inKey] at isLost
    cases isLost

theorem readSet_openComposer (separable : Separable original all) :
    readSet (openComposer original all) = ⟨original.toList all, original.ccList all, []⟩ := by
  have kept : ∀ addr ∈ original.toList all ++ original.ccList all,
      (jsTrim addr = addr ∧ addr ≠ []) ∧ ∀ c ∈ addr, isLost c = false :=
    fun _ => kept_of_separable separable
  simp only [readSet, openComposer]
  rw [splitField_inputValue_join, splitField_inputValue_join]
  · rfl
  · exact fun addr member => (kept addr (List.mem_append_right _ member)).1
  · exact fun addr member => (kept addr (List.mem_append_right _ member)).2
  · exact fun addr member => (kept addr (List.mem_append_left _ member)).1
  · exact fun addr member => (kept addr (List.mem_append_left _ member)).2

theorem addressed_of_toAddrs (sent : (readSet (openComposer original all)).toAddrs ≠ []) :
    Addressed original all := by
  cases list : original.toList all with
  | nil =>
    have noField : (openComposer original all).toField = [] := by
      rw [openComposer, list]
      rfl
    refine absurd ?_ sent
    rw [readSet, noField]
    rfl
  | cons addr others =>
    have member : keyOf addr ∈ (original.toList all).map keyOf := by
      rw [list]
      exact List.mem_cons_self
    exact ⟨keyOf addr, (mem_keys_toList original all).mp member⟩

theorem toList_ne_nil (addressed : Addressed original all) : original.toList all ≠ [] := by
  obtain ⟨key, isPrimary⟩ := addressed
  have member := (mem_keys_toList original all).mpr isPrimary
  intro isEmpty
  rw [isEmpty] at member
  cases member

theorem reply_addresses_exactly_iff (original : Original) (all : Bool) :
    (∃ set, sendUntouched original all = some set ∧ AddressesExactly original all set) ↔
      Addressed original all ∧ Separable original all := by
  constructor
  · rintro ⟨set, sent, exactly⟩
    obtain ⟨isSet, someTo, _⟩ := submit_eq_some.mp sent
    refine ⟨addressed_of_toAddrs someTo, fun key wanted c inKey => ?_⟩
    obtain ⟨addr, member, rfl⟩ := List.mem_map.mp ((exactly.exactly key).mpr wanted)
    rw [← isSet] at member
    have kept := kept_of_mem_readSet member
    by_contra isLost
    rw [Bool.not_eq_false] at isLost
    rw [kept c (mem_of_mem_jsTrim ((mem_keyOf_of_isLost isLost).mp inKey))] at isLost
    cases isLost
  · rintro ⟨addressed, separable⟩
    have read := readSet_openComposer separable
    refine ⟨⟨original.toList all, original.ccList all, []⟩, ?_, ?_⟩
    · rw [sendUntouched, submit_eq_some, read]
      exact ⟨rfl, toList_ne_nil addressed, rfl⟩
    · exact ⟨(keys_of_reply original all).1, (keys_of_reply original all).2, rfl⟩

end

section Examples

local instance : AsciiUnicode := plainTables

def fromQuotedComma : Original where
  outgoing := false
  sender := "\"eve@example.net,ada\"@example.org".toList
  self := "me@example.org".toList
  recipients := [⟨.to, "me@example.org".toList, []⟩]

def splitSender : RecipientSet where
  toAddrs := ["\"eve@example.net".toList, "ada\"@example.org".toList]

/-- A comma in a quoted local part is accepted in an address.  The reply goes to two
others in its place, which the engine accepts as well. -/
theorem comma_splits_sender :
    mayBeValidAddr fromQuotedComma.sender = true ∧ splitSender.toAddrs.all mayBeValidAddr = true ∧
      sendUntouched fromQuotedComma false = some splitSender ∧
      ¬∃ set, sendUntouched fromQuotedComma false = some set ∧
        AddressesExactly fromQuotedComma false set := by
  have sent : sendUntouched fromQuotedComma false = some splitSender := by decide +kernel
  refine ⟨by decide +kernel, by decide +kernel, sent, ?_⟩
  rintro ⟨set, isSet, exactly⟩
  rw [sent, Option.some.injEq] at isSet
  subst isSet
  have wanted := (exactly.exactly "ada\"@example.org".toList).mp (by decide +kernel)
  revert wanted
  decide +kernel

end Examples

end Eeemail.Desktop.Replies
