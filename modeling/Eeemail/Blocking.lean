import Eeemail.Blocklist
import Eeemail.ContactTable
import Eeemail.Lib.Runs

/-! # What the blocklist names

A pattern is read three times: when it is stored, when the list is queried, and
when it is removed.  The query and the predicate agree on every stored pattern.
Both cut an address at its first `@`, where the parser of addresses cuts at the
last one.  Blocking a person writes the contact and the list one after the
other: what holds of the two together is kept by calls that meet a condition,
wherever the database fails. -/

set_option autoImplicit false

namespace Eeemail.Blocking

open Lib.Texts Lib.Actions Lib.Tables Lib.Runs Addr Store Contacts Gating Acquaintance Blocklist
open ContactTable

variable {norm pattern addr : Text} {parts : EmailAddress} {db db' : Db} {contact : Contact}

/-! ## Cutting at an `@` -/

theorem domainOf_append {before after : Text} (first : '@' ∉ before) :
    domainOf (before ++ '@' :: after) = some after := by
  have dropped : (before ++ '@' :: after).dropWhile (· != '@') = '@' :: after := by
    induction before with
    | nil => simp
    | cons c rest ih =>
      simp only [List.mem_cons, not_or] at first
      simp [Ne.symm first.1, ih first.2]
  simp [domainOf, dropped]

theorem at_mem_of_domainOf {s domain : Text} (cut : domainOf s = some domain) : '@' ∈ s := by
  by_contra absent
  simp [domainOf, absent] at cut

theorem domainOf_cons (domain : Text) : domainOf ('@' :: domain) = some domain :=
  domainOf_append (List.not_mem_nil (a := '@'))

theorem exists_domainOf {s : Text} (member : '@' ∈ s) :
    ∃ before after, s = before ++ '@' :: after ∧ '@' ∉ before ∧ domainOf s = some after := by
  obtain ⟨before, after, rfl, first⟩ := List.eq_append_cons_of_mem member
  exact ⟨before, after, rfl, first, domainOf_append first⟩

section

variable [Unicode]

/-- What may be stored: a text with one `@` and a dot after it. -/
def Storable (norm : Text) : Prop :=
  ∃ localPart domain, norm = localPart ++ '@' :: domain ∧ '@' ∉ localPart ∧ '@' ∉ domain ∧
    '.' ∈ domain

omit [Unicode] in
theorem Storable.count_at (storable : Storable norm) : norm.count '@' = 1 := by
  obtain ⟨localPart, domain, rfl, first, only, _⟩ := storable
  rw [List.count_append, List.count_cons_self, List.count_eq_zero_of_not_mem first,
    List.count_eq_zero_of_not_mem only]

omit [Unicode] in
theorem Storable.exists_domainOf (storable : Storable norm) :
    ∃ domain, domainOf norm = some domain := by
  obtain ⟨localPart, domain, rfl, first, _⟩ := storable
  exact ⟨domain, domainOf_append first⟩

theorem storable_of_validate (valid : validate pattern = .ok norm) :
    norm = normalizePattern pattern ∧ Storable norm := by
  unfold validate at valid
  split at valid
  next => cases valid
  next domain isNorm =>
    split at valid
    next => cases valid
    next passed =>
      injection valid with same
      simp only [Bool.or_eq_true, not_or, Bool.not_eq_true, Bool.not_eq_false',
        List.contains_eq_mem, decide_eq_true_eq] at passed
      rw [← same]
      exact ⟨isNorm.symm, [], domain, rfl, List.not_mem_nil, passed.2, passed.1.2⟩
  next =>
    simp only at valid
    split at valid
    next => cases valid
    next passed =>
      injection valid with same
      refine ⟨same.symm, ?_⟩
      rw [same] at passed
      simp only [Bool.or_eq_true, not_or, Bool.not_eq_true, Bool.not_eq_false',
        Option.isSome_eq_false_iff, Option.isNone_iff_eq_none, List.getElem?_eq_none_iff,
        List.contains_eq_mem, decide_eq_true_eq] at passed
      obtain ⟨⟨⟨_, filled⟩, short⟩, dotted⟩ := passed
      have member : '@' ∈ norm := by
        by_contra absent
        rw [split_of_not_mem absent] at filled
        cases filled
      obtain ⟨localPart, domain, whole, first, _⟩ := exists_domainOf member
      rw [whole, split_append domain first] at short dotted
      have only : '@' ∉ domain := by
        rw [List.length_cons, length_split] at short
        exact List.count_eq_zero.mp (by omega)
      rw [split_of_not_mem only] at dotted
      exact ⟨localPart, domain, whole, first, only, dotted⟩

theorem new_eq_ok (accepted : EmailAddress.new addr = .ok parts) :
    (∀ c ∈ addr, Unicode.isWhitespace c = false) ∧
      addr = parts.localPart ++ '@' :: parts.domain ∧ '@' ∉ parts.domain := by
  unfold EmailAddress.new at accepted
  split at accepted
  next => cases accepted
  split at accepted
  next => cases accepted
  next solid =>
    cases found : rsplitOnce '@' addr with
    | none =>
      simp only [found] at accepted
      cases accepted
    | some halves =>
      obtain ⟨localPart, domain⟩ := halves
      simp only [found] at accepted
      split at accepted
      next => cases accepted
      split at accepted
      next => cases accepted
      split at accepted
      next => cases accepted
      injection accepted with same
      subst same
      refine ⟨fun c member => ?_, rsplitOnce_eq_some found⟩
      simp only [List.any_eq_true, Bool.or_eq_true, not_exists, not_and, not_or] at solid
      simpa using (solid c member).1.1

/-! ## One rule -/

/-- What a pattern describes, as the code cuts addresses. -/
def Covers (pattern addrNorm : Text) : Prop :=
  pattern = addrNorm ∨ ∃ domain, domainOf addrNorm = some domain ∧ pattern = '@' :: domain

/-- What a pattern describes, as the parser cuts addresses. -/
def Names (pattern addr : Text) (parts : EmailAddress) : Prop :=
  pattern = normalizePattern addr ∨ pattern = '@' :: lowercase parts.domain

omit [Unicode] in
theorem patternCovers_iff {addrNorm : Text} :
    patternCovers pattern addrNorm = true ↔ Covers pattern addrNorm := by
  unfold patternCovers Covers
  split
  next domain =>
    simp only [Option.any_eq_true, beq_iff_eq, List.cons.injEq, true_and]
    constructor
    · rintro ⟨cut, found, rfl⟩
      exact Or.inr ⟨cut, found, rfl⟩
    · rintro (rfl | ⟨cut, found, rfl⟩)
      · exact ⟨domain, domainOf_cons domain, rfl⟩
      · exact ⟨domain, found, rfl⟩
  next other =>
    simp only [beq_iff_eq]
    constructor
    · exact Or.inl
    · rintro (same | ⟨domain, _, same⟩)
      · exact same
      · exact absurd same (other domain)

def Listed (pattern : Text) (db : Db) : Prop := ∃ entry ∈ db.blocklist, entry.patternNorm = pattern

theorem blocklistMatches_iff :
    blocklistMatches addr db = true ↔ ∃ domain, domainOf (normalizePattern addr) = some domain ∧
      (Listed (normalizePattern addr) db ∨ Listed ('@' :: domain) db) := by
  unfold blocklistMatches
  cases domainOf (normalizePattern addr) with
  | none => simp
  | some domain =>
    simp only [List.any_eq_true, Bool.or_eq_true, beq_iff_eq, Option.some.injEq, exists_eq_left',
      Listed, ← exists_or, ← and_or_left]

def Valid (db : Db) : Prop := ∀ entry ∈ db.blocklist, Storable entry.patternNorm

theorem matches_iff_covered (valid : Valid db) :
    blocklistMatches addr db = true ↔
      ∃ entry ∈ db.blocklist, Covers entry.patternNorm (normalizePattern addr) := by
  rw [blocklistMatches_iff]
  constructor
  · rintro ⟨domain, cut, ⟨entry, member, same⟩ | ⟨entry, member, same⟩⟩
    · exact ⟨entry, member, Or.inl same⟩
    · exact ⟨entry, member, Or.inr ⟨domain, cut, same⟩⟩
  · rintro ⟨entry, member, same | ⟨domain, cut, same⟩⟩
    · obtain ⟨domain, cut⟩ := (same ▸ valid entry member).exists_domainOf
      exact ⟨domain, cut, Or.inl ⟨entry, member, same⟩⟩
    · exact ⟨domain, cut, Or.inr ⟨entry, member, same⟩⟩

/-! ## The two ways to cut -/

theorem normalizePattern_accepted (accepted : EmailAddress.new addr = .ok parts) :
    normalizePattern addr = lowercase parts.localPart ++ '@' :: lowercase parts.domain ∧
      '@' ∉ lowercase parts.domain := by
  obtain ⟨solid, whole, unsplit⟩ := new_eq_ok accepted
  refine ⟨?_, fun member => unsplit (at_mem_lowercase.mp member)⟩
  rw [normalizePattern, trim_eq_self solid, whole, lowercase_at]

theorem covers_iff_names (pattern : Text) (accepted : EmailAddress.new addr = .ok parts)
    (whole : '@' ∉ parts.localPart) :
    Covers pattern (normalizePattern addr) ↔ Names pattern addr parts := by
  obtain ⟨normal, _⟩ := normalizePattern_accepted accepted
  have first : '@' ∉ lowercase parts.localPart := fun member => whole (at_mem_lowercase.mp member)
  have cut : domainOf (normalizePattern addr) = some (lowercase parts.domain) := by
    rw [normal]
    exact domainOf_append first
  simp [Covers, Names, cut]

theorem exists_cut (accepted : EmailAddress.new addr = .ok parts) (inner : '@' ∈ parts.localPart) :
    ∃ domain, domainOf (normalizePattern addr) = some domain ∧ '@' ∈ domain ∧
      2 ≤ (normalizePattern addr).count '@' := by
  obtain ⟨normal, _⟩ := normalizePattern_accepted accepted
  obtain ⟨before, after, isLocal, first⟩ :=
    List.eq_append_cons_of_mem (at_mem_lowercase.mpr inner)
  have whole : normalizePattern addr =
      before ++ '@' :: (after ++ '@' :: lowercase parts.domain) := by
    rw [normal, isLocal]
    simp
  refine ⟨after ++ '@' :: lowercase parts.domain, ?_, ?_, ?_⟩
  · rw [whole]
    exact domainOf_append first
  · simp
  · rw [whole]
    simp only [List.count_append, List.count_cons_self]
    omega

theorem matches_exact_iff (valid : Valid db) (accepted : EmailAddress.new addr = .ok parts) :
    (blocklistMatches addr db = true ↔ ∃ entry ∈ db.blocklist, Names entry.patternNorm addr parts) ↔
      ('@' ∉ parts.localPart ∨ ¬Listed ('@' :: lowercase parts.domain) db) := by
  rw [matches_iff_covered valid]
  by_cases inner : '@' ∈ parts.localPart
  · obtain ⟨domain, cut, again, twice⟩ := exists_cut accepted inner
    have unlisted : ∀ entry ∈ db.blocklist, entry.patternNorm ≠ normalizePattern addr := by
      intro entry member same
      have one := (valid entry member).count_at
      rw [same] at one
      omega
    have uncovered : ¬∃ entry ∈ db.blocklist, Covers entry.patternNorm (normalizePattern addr) := by
      rintro ⟨entry, member, same | ⟨other, cut', same⟩⟩
      · exact unlisted entry member same
      · have one := (valid entry member).count_at
        rw [cut, Option.some.injEq] at cut'
        subst cut'
        rw [same, List.count_cons_self] at one
        have more := List.count_pos_iff.mpr again
        omega
    simp only [uncovered, false_iff, inner, not_true_eq_false, false_or]
    refine not_congr ⟨?_, ?_⟩
    · rintro ⟨entry, member, same | same⟩
      · exact absurd same (unlisted entry member)
      · exact ⟨entry, member, same⟩
    · rintro ⟨entry, member, same⟩
      exact ⟨entry, member, Or.inr same⟩
  · simp only [inner, not_false_eq_true, true_or, iff_true]
    simp only [covers_iff_names _ accepted inner]

theorem covers_exact_iff (pattern : Text) (accepted : EmailAddress.new addr = .ok parts) :
    (Covers pattern (normalizePattern addr) ↔ Names pattern addr parts) ↔
      ('@' ∉ parts.localPart ∨ (pattern ≠ '@' :: lowercase parts.domain ∧
        ∀ domain, domainOf (normalizePattern addr) = some domain → pattern = '@' :: domain →
          pattern = normalizePattern addr)) := by
  by_cases inner : '@' ∈ parts.localPart
  · obtain ⟨cut, found, again, twice⟩ := exists_cut accepted inner
    have unsplit := (normalizePattern_accepted accepted).2
    have other : cut ≠ lowercase parts.domain := by
      rintro rfl
      exact unsplit again
    simp only [Covers, Names, found, Option.some.injEq, exists_eq_left', inner, not_true_eq_false,
      false_or, forall_eq']
    constructor
    · intro agree
      constructor
      · intro isDomain
        rcases agree.mpr (Or.inr isDomain) with whole | first
        · rw [← whole, isDomain, List.count_cons_self,
            List.count_eq_zero_of_not_mem unsplit] at twice
          omega
        · rw [isDomain] at first
          exact other (List.cons.inj first).2.symm
      · intro first
        rcases agree.mp (Or.inr first) with whole | last
        · exact whole
        · rw [first] at last
          exact absurd (List.cons.inj last).2 other
    · rintro ⟨notDomain, onlyWhole⟩
      constructor
      · rintro (whole | first)
        · exact Or.inl whole
        · exact Or.inl (onlyWhole first)
      · rintro (whole | isDomain)
        · exact Or.inl whole
        · exact absurd isDomain notDomain
  · simp only [inner, not_false_eq_true, true_or, iff_true]
    exact covers_iff_names pattern accepted inner

/-! ## The contacts of blocked lists -/

section Lists

variable {lists : List GroupChat} {chat : GroupChat}

omit [Unicode]

def OfList (lists : List GroupChat) (addr : Text) : Prop :=
  ∃ chat ∈ lists, nocaseEq addr chat.grpid = true

/-- Contacts were added and blocked for lists, and for nothing else. -/
structure ListsAdded (lists : List GroupChat) (db db' : Db) : Prop where
  blocklist : db'.blocklist = db.blocklist
  groups : db'.groups = db.groups
  next : db.nextContactId ≤ db'.nextContactId
  ok : ContactsOk db → ContactsOk db'
  kept : ∀ old ∈ db.contacts, ∃ row ∈ db'.contacts, row.id = old.id ∧ row.addr = old.addr ∧
    (old.blocked = true → row.blocked = true)
  cameFrom : ∀ row ∈ db'.contacts,
    (∃ old ∈ db.contacts, old.id = row.id ∧ old.addr = row.addr ∧
      (row.blocked = true → old.blocked = true ∨ OfList lists row.addr)) ∨
    (db.nextContactId ≤ row.id ∧ OfList lists row.addr)

theorem ListsAdded.refl (lists : List GroupChat) (db : Db) : ListsAdded lists db db :=
  ⟨rfl, rfl, Nat.le_refl _, id, fun old member => ⟨old, member, rfl, rfl, id⟩,
    fun row member => Or.inl ⟨row, member, rfl, rfl, Or.inl⟩⟩

theorem ListsAdded.trans {db'' : Db} (first : ListsAdded lists db db')
    (second : ListsAdded lists db' db'') : ListsAdded lists db db'' where
  blocklist := second.blocklist.trans first.blocklist
  groups := second.groups.trans first.groups
  next := Nat.le_trans first.next second.next
  ok := second.ok ∘ first.ok
  kept old member := by
    obtain ⟨middle, isMiddle, sameId, sameAddr, blocked⟩ := first.kept old member
    obtain ⟨row, isRow, rowId, rowAddr, rowBlocked⟩ := second.kept middle isMiddle
    exact ⟨row, isRow, rowId.trans sameId, rowAddr.trans sameAddr, rowBlocked ∘ blocked⟩
  cameFrom row isRow := by
    rcases second.cameFrom row isRow with
      ⟨middle, isMiddle, sameId, sameAddr, blocked⟩ | ⟨new, ofList⟩
    · rw [← sameId, ← sameAddr] at *
      rcases first.cameFrom middle isMiddle with ⟨old, isOld, oldId, oldAddr, wasBlocked⟩ | isNew
      · refine Or.inl ⟨old, isOld, oldId, oldAddr, fun isBlocked => ?_⟩
        exact (blocked isBlocked).elim wasBlocked Or.inr
      · exact Or.inr isNew
    · exact Or.inr ⟨Nat.le_trans first.next new, ofList⟩

theorem listsAdded_upsertList (member : chat ∈ lists) (db : Db) :
    ListsAdded lists db (upsertList db chat) := by
  have added : ListsAdded lists db
      (if db.contacts.any fun contact => nocaseEq contact.addr chat.grpid then db
      else
        { db with
          contacts := db.contacts ++ [{ id := db.nextContactId, addr := chat.grpid }]
          nextContactId := db.nextContactId + 1 }) := by
    split
    · exact .refl lists db
    · refine ⟨rfl, rfl, Nat.le_succ _, fun ok => ok.append rfl, fun old isOld => ?_,
        fun row isRow => ?_⟩
      · exact ⟨old, List.mem_append_left _ isOld, rfl, rfl, id⟩
      · rcases List.mem_append.mp isRow with old | new
        · exact Or.inl ⟨row, old, rfl, rfl, Or.inl⟩
        · rw [List.mem_singleton.mp new]
          exact Or.inr ⟨Nat.le_refl _, chat, member, nocaseEq_iff.mpr rfl⟩
  refine added.trans ⟨rfl, rfl, Nat.le_refl _, fun ok => ok.update fun _ => rfl,
    fun old isOld => ?_,
    fun row isRow => ?_⟩
  · refine ⟨_, mem_updateWhere.mpr ⟨old, isOld, rfl⟩, ?_⟩
    split
    · exact ⟨rfl, rfl, fun _ => rfl⟩
    · exact ⟨rfl, rfl, id⟩
  · obtain ⟨old, isOld, rfl⟩ := mem_updateWhere.mp isRow
    refine Or.inl ⟨old, isOld, ?_⟩
    split
    next same => exact ⟨rfl, rfl, fun _ => Or.inr ⟨chat, member, same⟩⟩
    next => exact ⟨rfl, rfl, Or.inl⟩

theorem listsAdded (db : Db) :
    ListsAdded (db.groups.filter isBlockedList) db (updateBlockedMailinglistContacts db) :=
  List.foldlRecOn _ _ (.refl _ db) fun _ added _ member =>
    added.trans (listsAdded_upsertList member _)

end Lists

/-! ## Removing a pattern -/

def coveredOf (pattern : Text) (ids : List ContactId) (contact : Contact) : Bool :=
  ids.contains contact.id && patternCovers pattern (normalizePattern contact.addr)

/-- Lists may have been unblocked, and are the same otherwise. -/
def Freer (db db' : Db) : Prop :=
  ∀ chat ∈ db'.groups, ∃ old ∈ db.groups, old.grpid = chat.grpid ∧
    (isBlockedList chat = true → isBlockedList old = true)

def withBlocked (newBlocking : Bool) (contact : Contact) : Contact :=
  { contact with blocked := newBlocking }

/-- The `blocked` of some contacts was set, and neither the list nor another contact changed. -/
structure Marked (p : Contact → Bool) (newBlocking : Bool) (db db' : Db) : Prop where
  blocklist : db'.blocklist = db.blocklist
  next : db'.nextContactId = db.nextContactId
  groups : Freer db db'
  contacts : db'.contacts = updateWhere p (withBlocked newBlocking) db.contacts

omit [Unicode] in
theorem Freer.refl (db : Db) : Freer db db := fun chat member => ⟨chat, member, rfl, id⟩

omit [Unicode] in
theorem Freer.trans {db'' : Db} (first : Freer db db') (second : Freer db' db'') :
    Freer db db'' := by
  intro chat member
  obtain ⟨middle, isMiddle, sameId, blocked⟩ := second chat member
  obtain ⟨old, isOld, oldId, wasBlocked⟩ := first middle isMiddle
  exact ⟨old, isOld, oldId.trans sameId, wasBlocked ∘ blocked⟩

omit [Unicode] in
theorem freer_writeBlocked (contact : Contact) (newBlocking : Bool) (db : Db) :
    Freer db (writeBlocked contact newBlocking db) := by
  intro chat member
  simp only [writeBlocked, markNoticed, unblockGroup] at member
  split at member
  · split at member
    · obtain ⟨old, isOld, rfl⟩ := mem_updateWhere.mp member
      refine ⟨old, isOld, ?_⟩
      split
      · exact ⟨rfl, fun blocked => by simp [isBlockedList] at blocked⟩
      · exact ⟨rfl, id⟩
    · exact ⟨chat, member, rfl, id⟩
  · exact ⟨chat, member, rfl, id⟩

omit [Unicode] in
theorem exists_marked (ok : ContactsOk db) (newBlocking : Bool) (member : contact ∈ db.contacts)
    (real : ContactId.lastSpecial < contact.id) :
    ∃ db', (setBlocked contact.id newBlocking).run db = .ok () db' ∧
      Marked (fun row => row.id == contact.id) newBlocking db db' := by
  refine ⟨_, setBlocked_run newBlocking real (ok.contactById member), ?_⟩
  split
  next already =>
    refine ⟨rfl, rfl, .refl db, (updateWhere_eq_self fun row isRow isId => ?_).symm⟩
    rw [ok.unique isRow member (by simpa using isId), ← already]
    rfl
  next => exact ⟨rfl, rfl, freer_writeBlocked contact newBlocking db, rfl⟩

theorem unblockCovered_run (ok : ContactsOk db) (pattern : Text) (member : contact ∈ db.contacts)
    (real : ContactId.lastSpecial < contact.id) :
    ∃ db', (unblockCovered pattern contact.id).run db = .ok () db' ∧
      Marked (coveredOf pattern [contact.id]) false db db' := by
  have asked : (unblockCovered pattern contact.id).run db =
      (onlyIf (patternCovers pattern (normalizePattern contact.addr))
        (unblock contact.id)).run db := by
    unfold unblockCovered
    rw [EStateM.run_bind, query_run, ok.contactById member]
  have sameRow : ∀ row ∈ db.contacts, (row.id == contact.id) = true → row = contact :=
    fun row isRow isId => ok.unique isRow member (by simpa using isId)
  rw [asked]
  cases covers : patternCovers pattern (normalizePattern contact.addr) with
  | true =>
    obtain ⟨db', run, marked⟩ := exists_marked ok false member real
    refine ⟨db', run, marked.blocklist, marked.next, marked.groups,
      marked.contacts.trans (List.map_congr_left fun row isRow => ?_)⟩
    cases isId : row.id == contact.id with
    | true => simp [coveredOf, sameRow row isRow isId, covers]
    | false =>
      have differs : row.id ≠ contact.id := by simpa using isId
      simp [coveredOf, differs]
  | false =>
    refine ⟨db, rfl, rfl, rfl, .refl db, (updateWhere_eq_self fun row isRow covered => ?_).symm⟩
    simp only [coveredOf, List.contains_cons, List.contains_nil, Bool.or_false,
      Bool.and_eq_true] at covered
    rw [sameRow row isRow covered.1, covers] at covered
    cases covered.2

theorem forEach_unblockCovered_run (pattern : Text) (ids : List ContactId) (ok : ContactsOk db)
    (there : ∀ id ∈ ids, ContactId.lastSpecial < id ∧ ∃ contact ∈ db.contacts, contact.id = id) :
    ∃ db', (forEach (unblockCovered pattern) ids).run db = .ok () db' ∧
      Marked (coveredOf pattern ids) false db db' := by
  induction ids generalizing db with
  | nil =>
    refine ⟨db, rfl, rfl, rfl, .refl db, (updateWhere_eq_self fun row _ covered => ?_).symm⟩
    simp [coveredOf] at covered
  | cons id rest ih =>
    obtain ⟨real, contact, member, rfl⟩ := there id List.mem_cons_self
    obtain ⟨middle, run, marked⟩ := unblockCovered_run ok pattern member real
    have okMiddle := ok.updated marked.contacts (fun _ => rfl) marked.next
    obtain ⟨last, ran, later⟩ := ih okMiddle fun id isRest => by
      obtain ⟨isReal, row, isRow, isId⟩ := there id (List.mem_cons_of_mem _ isRest)
      refine ⟨isReal, _, marked.contacts ▸ mem_updateWhere.mpr ⟨row, isRow, rfl⟩, ?_⟩
      split <;> exact isId
    refine ⟨last, bind_eq_ok.mpr ⟨(), middle, run, ran⟩, later.blocklist.trans marked.blocklist,
      later.next.trans marked.next, marked.groups.trans later.groups, ?_⟩
    rw [later.contacts, marked.contacts,
      updateWhere_updateWhere (f := withBlocked false) fun _ => rfl]
    refine List.map_congr_left fun row _ => ?_
    simp only [coveredOf, List.contains_cons, List.contains_nil, Bool.or_false,
      Bool.and_or_distrib_right]

omit [Unicode] in
theorem mem_getAllBlocked {id : ContactId} :
    id ∈ getAllBlocked db ↔
      ∃ contact ∈ db.contacts, contact.id = id ∧ ContactId.lastSpecial < id ∧
        contact.blocked = true := by
  simp only [getAllBlocked, List.mem_map, List.mem_insertionSort, List.mem_filter, Bool.and_eq_true,
    decide_eq_true_eq]
  constructor
  · rintro ⟨contact, ⟨member, real, isBlocked⟩, rfl⟩
    exact ⟨contact, member, rfl, real, isBlocked⟩
  · rintro ⟨contact, member, rfl, real, isBlocked⟩
    exact ⟨contact, ⟨member, real, isBlocked⟩, rfl⟩

def listedDb (pattern : Text) (db : Db) : Db :=
  updateBlockedMailinglistContacts (deletePattern pattern db)

theorem listedDb_added (pattern : Text) (db : Db) :
    ListsAdded (db.groups.filter isBlockedList) (deletePattern pattern db) (listedDb pattern db) :=
  listsAdded (deletePattern pattern db)

/-- A pattern was removed, and the contacts that it covers were unblocked. -/
abbrev Removed (pattern : Text) (db db' : Db) : Prop :=
  Marked (coveredOf (normalizePattern pattern) (getAllBlocked (listedDb pattern db))) false
    (listedDb pattern db) db'

theorem exists_unblocked (pattern : Text) (ok : ContactsOk db) {ids : List ContactId}
    (some' : ∀ id ∈ ids, id ∈ getAllBlocked (listedDb pattern db)) :
    ∃ db', (forEach (unblockCovered (normalizePattern pattern)) ids).run (listedDb pattern db) =
        .ok () db' ∧
      Marked (coveredOf (normalizePattern pattern) ids) false (listedDb pattern db) db' := by
  have okDeleted : ContactsOk (deletePattern pattern db) := ⟨ok.ids_nodup, ok.ids_lt, ok.next_real⟩
  refine forEach_unblockCovered_run _ ids ((listedDb_added pattern db).ok okDeleted)
    fun id member => ?_
  obtain ⟨contact, isContact, isId, real, _⟩ := mem_getAllBlocked.mp (some' id member)
  exact ⟨real, contact, isContact, isId⟩

theorem exists_removed (pattern : Text) (ok : ContactsOk db) :
    ∃ db', (remove pattern).run db = .ok () db' ∧ Removed pattern db db' := by
  obtain ⟨db', run, marked⟩ := exists_unblocked pattern ok fun _ member => member
  exact ⟨db', run, marked⟩

theorem removeCut_cases (pattern : Text) (ok : ContactsOk db) (looked : Option Nat) :
    (looked = none ∧ stateAfter (removeCut pattern looked) db = deletePattern pattern db) ∨
      ∃ count, looked = some count ∧
        Marked (coveredOf (normalizePattern pattern)
          ((getAllBlocked (listedDb pattern db)).take count))
          false (listedDb pattern db) (stateAfter (removeCut pattern looked) db) := by
  cases looked with
  | none => exact Or.inl ⟨rfl, rfl⟩
  | some count =>
    obtain ⟨db', run, marked⟩ := exists_unblocked pattern ok fun id
      (member : id ∈ (getAllBlocked (listedDb pattern db)).take count) =>
        List.mem_of_mem_take member
    have after : stateAfter (removeCut pattern (some count)) db = db' :=
      (stateAfter_bind_of_ok run).trans rfl
    exact Or.inr ⟨count, rfl, after ▸ marked⟩

/-! ## Calls -/

inductive Call where
  | add (pattern reason : Text) (now : Int)
  | remove (pattern : Text)
  | blockContact (id : ContactId) (now : Int)
  | unblockContact (id : ContactId)

def perform : Call → DbAction Unit
  | .add pattern reason now => add pattern reason now
  | .remove pattern => remove pattern
  | .blockContact id now => blockContact id now
  | .unblockContact id => unblockContact id

def step (db : Db) (call : Call) : Db := stateAfter (perform call) db

/-- What holds whatever is called: stored patterns are valid, and contacts are unique. -/
structure Sane (db : Db) : Prop where
  valid : Valid db
  contacts : ContactsOk db

theorem listed_insertEntry {other reason : Text} {now : Int} :
    Listed other (insertEntry pattern norm reason now db) ↔ Listed other db ∨ other = norm := by
  unfold insertEntry
  split
  next already =>
    obtain ⟨entry, member, same⟩ := List.any_eq_true.mp already
    refine (or_iff_left_of_imp ?_).symm
    rintro rfl
    exact ⟨entry, member, by simpa using same⟩
  next =>
    simp only [Listed, List.mem_append, List.mem_singleton, or_and_right, exists_or,
      exists_eq_left, eq_comm]

omit [Unicode] in
theorem valid_iff : Valid db ↔ ∀ pattern, Listed pattern db → Storable pattern := by
  constructor
  · rintro valid pattern ⟨entry, member, rfl⟩
    exact valid entry member
  · intro storable entry member
    exact storable _ ⟨entry, member, rfl⟩

theorem matches_mono (grown : ∀ pattern, Listed pattern db → Listed pattern db')
    (rejected : blocklistMatches addr db = true) : blocklistMatches addr db' = true := by
  rw [blocklistMatches_iff] at rejected ⊢
  obtain ⟨domain, cut, listed⟩ := rejected
  exact ⟨domain, cut, listed.imp (grown _) (grown _)⟩

theorem contacts_insertEntry (pattern norm reason : Text) (now : Int) (db : Db) :
    contactsView (insertEntry pattern norm reason now db) = contactsView db := by
  unfold insertEntry
  split <;> rfl

theorem Sane.insertEntry (sane : Sane db) (reason : Text) (now : Int) (storable : Storable norm) :
    Sane (insertEntry pattern norm reason now db) := by
  refine ⟨valid_iff.mpr fun other listed => ?_,
    sane.contacts.of_contactsView (contacts_insertEntry ..)⟩
  rcases listed_insertEntry.mp listed with old | rfl
  · exact valid_iff.mp sane.valid other old
  · exact storable

omit [Unicode] in
theorem Sane.marked {p : Contact → Bool} {newBlocking : Bool} (sane : Sane db)
    (marked : Marked p newBlocking db db') : Sane db' :=
  ⟨fun entry member => sane.valid entry (marked.blocklist ▸ member),
    sane.contacts.updated marked.contacts (fun _ => rfl) marked.next⟩

theorem Sane.deleted (sane : Sane db) (pattern : Text) : Sane (deletePattern pattern db) :=
  ⟨fun entry member => sane.valid entry (mem_deleteWhere.mp member).1,
    sane.contacts.ids_nodup, sane.contacts.ids_lt, sane.contacts.next_real⟩

theorem Sane.listed (sane : Sane db) (pattern : Text) : Sane (listedDb pattern db) := by
  have added := listedDb_added pattern db
  exact ⟨fun entry member => (sane.deleted pattern).valid entry (added.blocklist ▸ member),
    added.ok (sane.deleted pattern).contacts⟩

theorem coveredOf_blocked (member : contact ∈ db.contacts) (isBlocked : contact.blocked = true)
    (real : ContactId.lastSpecial < contact.id) :
    coveredOf pattern (getAllBlocked db) contact =
      patternCovers pattern (normalizePattern contact.addr) := by
  have listed := mem_getAllBlocked.mpr ⟨contact, member, rfl, real, isBlocked⟩
  rw [coveredOf, List.contains_iff_mem.mpr listed, Bool.true_and]

omit [Unicode] in
theorem Marked.row {p : Contact → Bool} {newBlocking : Bool} (marked : Marked p newBlocking db db')
    (member : contact ∈ db'.contacts) :
    ∃ old ∈ db.contacts, old.id = contact.id ∧ old.addr = contact.addr ∧
      contact.blocked = if p old = true then newBlocking else old.blocked := by
  rw [marked.contacts, mem_updateWhere] at member
  obtain ⟨old, isOld, rfl⟩ := member
  refine ⟨old, isOld, ?_⟩
  split <;> exact ⟨rfl, rfl, rfl⟩

theorem unblocked_iff_covers (sane : Sane db) (removed : Removed pattern db db')
    (member : contact ∈ db.contacts) (isBlocked : contact.blocked = true)
    (real : ContactId.lastSpecial < contact.id) :
    (∀ row ∈ db'.contacts, row.id = contact.id → row.blocked = false) ↔
      Covers (normalizePattern pattern) (normalizePattern contact.addr) := by
  obtain ⟨row, isRow, sameId, sameAddr, blocked⟩ :=
    (listedDb_added pattern db).kept contact member
  rw [← patternCovers_iff, ← sameAddr,
    ← coveredOf_blocked isRow (blocked isBlocked) (sameId ▸ real), ← sameId]
  constructor
  · intro allUnblocked
    by_contra uncovered
    have stays := allUnblocked row
      (removed.contacts ▸ mem_updateWhere.mpr ⟨row, isRow, if_neg uncovered⟩) rfl
    rw [blocked isBlocked] at stays
    cases stays
  · intro covers later isLater isId
    obtain ⟨old, isOld, oldId, _, laterBlocked⟩ := removed.row isLater
    obtain rfl := (sane.listed pattern).contacts.unique isOld isRow (oldId.trans isId)
    rw [laterBlocked, if_pos covers]

/-! ## One call -/

/-- What blocking and unblocking a contact begin with. -/
abbrev marking (id : ContactId) (newBlocking : Bool) (after : Contact → DbAction Unit) :
    DbAction Unit := do
  let contact ← getById id
  setBlocked id newBlocking
  after contact

omit [Unicode] in
theorem marking_cases (ok : ContactsOk db) (id : ContactId) (newBlocking : Bool)
    (after : Contact → DbAction Unit) :
    (∃ e, (marking id newBlocking after).run db = .error e db) ∨
      ∃ contact ∈ db.contacts, contact.id = id ∧ ContactId.lastSpecial < id ∧ ∃ middle,
        Marked (fun row => row.id == contact.id) newBlocking db middle ∧
        (setBlocked id newBlocking).run db = .ok () middle ∧
        (marking id newBlocking after).run db = (after contact).run middle := by
  cases found : db.contactById id with
  | none =>
    have missing : (getById id).run db =
        .error ("contact ".toList ++ ContactId.display id ++ " not found".toList) db := by
      simp only [getById, querySome, queryExcept, EStateM.run, found]
    exact Or.inl ⟨_, by rw [EStateM.run_bind, missing]⟩
  | some contact =>
    obtain ⟨member, rfl⟩ := contactById_eq_some found
    have loaded : (getById contact.id).run db = .ok contact db :=
      (querySome_eq_ok _ _).mpr ⟨found, rfl⟩
    by_cases real : ContactId.lastSpecial < contact.id
    · obtain ⟨middle, run, marked⟩ := exists_marked ok newBlocking member real
      refine Or.inr ⟨contact, member, rfl, real, middle, marked, run, ?_⟩
      rw [EStateM.run_bind, loaded]
      simp only [EStateM.run_bind, run]
    · refine Or.inl ⟨"Can't block special contact ".toList ++ ContactId.display contact.id, ?_⟩
      have special : isSpecial contact.id = true := by
        rw [isSpecial, decide_eq_true_iff]
        exact Nat.not_lt.mp real
      rw [EStateM.run_bind, loaded]
      simp only [EStateM.run_bind, setBlocked, special, Bool.not_true, ensure, Bool.false_eq_true,
        if_false, fail_run]

theorem preserves_sane_add (pattern reason : Text) (now : Int) :
    Preserves Sane (add pattern reason now) := by
  unfold add
  split
  next => exact fun _ sane => sane
  next norm valid =>
    exact Preserves.exec fun db sane => sane.insertEntry reason now (storable_of_validate valid).2

theorem preserves_sane_remove (pattern : Text) : Preserves Sane (remove pattern) := by
  intro db sane
  obtain ⟨db', run, marked⟩ := exists_removed pattern sane.contacts
  rw [stateAfter_of_ok run]
  exact (sane.listed pattern).marked marked

omit [Unicode] in
theorem preserves_sane_marking (id : ContactId) (newBlocking : Bool)
    {after : Contact → DbAction Unit} (preserves : ∀ contact, Preserves Sane (after contact)) :
    Preserves Sane (marking id newBlocking after) := by
  intro db sane
  rcases marking_cases sane.contacts id newBlocking after with
    ⟨e, run⟩ | ⟨contact, _, _, _, middle, marked, _, run⟩
  · rw [stateAfter, run]
    exact sane
  · rw [stateAfter, run]
    exact preserves contact middle (sane.marked marked)

theorem sane_step (sane : Sane db) (call : Call) : Sane (step db call) := by
  cases call with
  | add pattern reason now => exact preserves_sane_add pattern reason now db sane
  | remove pattern => exact preserves_sane_remove pattern db sane
  | blockContact id now =>
    exact preserves_sane_marking id true (fun contact =>
      Preserves.onlyIf _ (preserves_sane_add contact.addr [] now)) db sane
  | unblockContact id =>
    exact preserves_sane_marking id false (fun contact =>
      Preserves.onlyIf _ (preserves_sane_remove contact.addr)) db sane

/-! ## What is rejected -/

theorem sane_run : ∀ calls db, Sane db → Sane (runAll step db calls) :=
  invariant_of_step fun _ call sane => sane_step sane call

omit [Unicode] in
theorem sane_empty (ok : ContactsOk db) (empty : db.blocklist = []) : Sane db := by
  refine ⟨fun entry member => ?_, ok⟩
  rw [empty] at member
  cases member

/-- After any calls, the query is right about an address exactly unless there is an `@`
in its local part and the list has its domain; and removing a pattern is right about a
blocked contact exactly unless its address is of that kind and the pattern is that of
one of its two domains. -/
theorem rejects_exactly {db : Db} (ok : ContactsOk db) (empty : db.blocklist = [])
    (calls : List Call) :
    (∀ addr parts, EmailAddress.new addr = .ok parts →
      ((blocklistMatches addr (runAll step db calls) = true ↔
          ∃ entry ∈ (runAll step db calls).blocklist, Names entry.patternNorm addr parts) ↔
        ('@' ∉ parts.localPart ∨
          ¬Listed ('@' :: lowercase parts.domain) (runAll step db calls)))) ∧
    ∀ pattern, ∃ db', (remove pattern).run (runAll step db calls) = .ok () db' ∧
      ∀ contact ∈ (runAll step db calls).contacts, contact.blocked = true →
        ContactId.lastSpecial < contact.id →
        ∀ parts, EmailAddress.new contact.addr = .ok parts →
          (((∀ row ∈ db'.contacts, row.id = contact.id → row.blocked = false) ↔
              Names (normalizePattern pattern) contact.addr parts) ↔
            ('@' ∉ parts.localPart ∨ (normalizePattern pattern ≠ '@' :: lowercase parts.domain ∧
              ∀ domain, domainOf (normalizePattern contact.addr) = some domain →
                normalizePattern pattern = '@' :: domain →
                  normalizePattern pattern = normalizePattern contact.addr))) := by
  have sane := sane_run calls db (sane_empty ok empty)
  refine ⟨fun addr parts accepted => matches_exact_iff sane.valid accepted, fun pattern => ?_⟩
  obtain ⟨db', run, marked⟩ := exists_removed pattern sane.contacts
  refine ⟨db', run, fun contact member isBlocked real parts accepted => ?_⟩
  rw [← covers_exact_iff (normalizePattern pattern) accepted,
    unblocked_iff_covers sane marked member isBlocked real]

end

section

local instance : Unicode := asciiTables

def quoted : Contact := { id := 10, addr := "a@b@spam.example".toList }

def quotedKnown : Db := { contacts := [quoted], nextContactId := 11 }

theorem contactsOk_quotedKnown : ContactsOk quotedKnown :=
  ⟨by decide, by decide, by decide⟩

/-- Listing the domain does not reject them; blocking them and removing the domain again
leaves them blocked. -/
theorem domain_misses_quoted :
    EmailAddress.new quoted.addr = .ok ⟨"a@b".toList, "spam.example".toList⟩ ∧
      Listed ('@' :: lowercase "spam.example".toList)
        (runAll step quotedKnown [.add "@spam.example".toList [] 0]) ∧
      blocklistMatches quoted.addr
        (runAll step quotedKnown [.add "@spam.example".toList [] 0]) = false ∧
      Names (normalizePattern "@spam.example".toList) quoted.addr
        ⟨"a@b".toList, "spam.example".toList⟩ ∧
      (runAll step quotedKnown
        [.blockContact 10 0, .remove "@spam.example".toList]).contacts.map (·.blocked) =
          [true] := by
  refine ⟨by rfl, ⟨_, List.mem_singleton.mpr rfl, by rfl⟩, by decide +kernel, Or.inr (by rfl),
    by decide +kernel⟩

theorem rejects_exactly_after_listing :
    blocklistMatches "bob@spam.example".toList
        (runAll step quotedKnown [.add "@spam.example".toList [] 0]) = true ↔
      ∃ entry ∈ (runAll step quotedKnown [.add "@spam.example".toList [] 0]).blocklist,
        Names entry.patternNorm "bob@spam.example".toList
          ⟨"bob".toList, "spam.example".toList⟩ :=
  ((rejects_exactly contactsOk_quotedKnown rfl [.add "@spam.example".toList [] 0]).1
    "bob@spam.example".toList _ (by rfl)).mpr (Or.inl (by decide))

end

section

variable [Unicode]

/-! ## No half-done block -/

/-- What happens to the list, a failure in between included. -/
inductive Move where
  | call (call : Call)
  | removeCut (pattern : Text) (looked : Option Nat)
  | blockCut (id : ContactId)
  | unblockCut (id : ContactId) (removing : Option (Option Nat))

def move (db : Db) : Move → Db
  | .call call => step db call
  | .removeCut pattern looked => stateAfter (removeCut pattern looked) db
  | .blockCut id => stateAfter (blockCut id) db
  | .unblockCut id removing => stateAfter (unblockCut id removing) db

def AllMatched (db : Db) : Prop :=
  ∀ contact ∈ db.contacts, contact.blocked = true → blocklistMatches contact.addr db = true

instance (db : Db) : Decidable (AllMatched db) :=
  inferInstanceAs (Decidable (∀ contact ∈ db.contacts, _))

/-- What must hold afterwards: every blocked contact's mail is rejected, and a contact
that was unblocked is neither blocked nor rejected. -/
def Whole (db : Db) : Move → Prop
  | .call (.unblockContact id) =>
    AllMatched (step db (.unblockContact id)) ∧
      ∀ db', (unblockContact id).run db = .ok () db' →
        ∀ contact ∈ db'.contacts, contact.id = id →
          contact.blocked = false ∧ blocklistMatches contact.addr db' = false
  | other => AllMatched (move db other)

def StillListed (pattern addr : Text) (db : Db) : Prop :=
  blocklistMatches addr (deletePattern pattern db) = true

instance (pattern addr : Text) (db : Db) : Decidable (StillListed pattern addr db) :=
  inferInstanceAs (Decidable (_ = true))

/-- When `remove` runs to its end: a blocked list loses no pattern that it needs, unless
its contact is unblocked, and a special contact loses none at all. -/
def CarefulRemove (pattern : Text) (db : Db) : Prop :=
  (∀ chat ∈ db.groups, isBlockedList chat = true →
    patternCovers (normalizePattern pattern) (normalizePattern chat.grpid) = true ∨
      StillListed pattern chat.grpid db) ∧
  ∀ contact ∈ db.contacts, contact.id ≤ ContactId.lastSpecial →
    (contact.blocked = true ∨
      ∃ chat ∈ db.groups, isBlockedList chat = true ∧ nocaseEq contact.addr chat.grpid = true) →
    StillListed pattern contact.addr db

/-- When `remove` fails: of the contacts that are blocked by then, those of lists included,
only one that was looked at and unblocked loses a pattern that it needs. -/
def CarefulCut (pattern : Text) (db : Db) : Option Nat → Prop
  | none => ∀ contact ∈ db.contacts, contact.blocked = true → StillListed pattern contact.addr db
  | some count =>
    ∀ contact ∈ (listedDb pattern db).contacts, contact.blocked = true →
      coveredOf (normalizePattern pattern) ((getAllBlocked (listedDb pattern db)).take count)
        contact = true ∨ StillListed pattern contact.addr db

def Careful (db : Db) : Move → Prop
  | .call (.add ..) => True
  | .call (.remove pattern) => CarefulRemove pattern db
  | .call (.blockContact id _) =>
    ∀ contact ∈ db.contacts, contact.id = id → ContactId.lastSpecial < id →
      (validate contact.addr).isOk = true
  | .call (.unblockContact id) =>
    ∀ contact ∈ db.contacts, contact.id = id → ContactId.lastSpecial < id →
      ¬StillListed contact.addr contact.addr db ∧
        (contact.addr.isEmpty = false → CarefulRemove contact.addr db)
  | .removeCut pattern looked => CarefulCut pattern db looked
  | .blockCut id =>
    ∀ contact ∈ db.contacts, contact.id = id → ContactId.lastSpecial < id →
      blocklistMatches contact.addr db = true
  | .unblockCut _ none => True
  | .unblockCut id (some looked) =>
    ∀ contact ∈ db.contacts, contact.id = id → ContactId.lastSpecial < id →
      contact.addr.isEmpty = false →
        CarefulCut contact.addr (stateAfter (unblock id) db) looked

instance (pattern : Text) (db : Db) : Decidable (CarefulRemove pattern db) :=
  inferInstanceAs (Decidable ((∀ chat ∈ db.groups, _) ∧ ∀ contact ∈ db.contacts, _))

instance (pattern : Text) (db : Db) : DecidablePred (CarefulCut pattern db)
  | none => inferInstanceAs (Decidable (∀ contact ∈ db.contacts, _))
  | some _ => inferInstanceAs (Decidable (∀ contact ∈ (listedDb pattern db).contacts, _))

instance (db : Db) : DecidablePred (Careful db)
  | .call (.add ..) | .unblockCut _ none => inferInstanceAs (Decidable True)
  | .call (.remove pattern) => inferInstanceAs (Decidable (CarefulRemove pattern db))
  | .call (.blockContact ..) | .call (.unblockContact _) | .blockCut _ | .unblockCut _ (some _) =>
    inferInstanceAs (Decidable (∀ contact ∈ db.contacts, _))
  | .removeCut pattern looked => inferInstanceAs (Decidable (CarefulCut pattern db looked))

theorem normalizePattern_eq_of_nocaseEq {s t : Text} (same : nocaseEq s t = true) :
    normalizePattern s = normalizePattern t := by
  rw [normalizePattern, normalizePattern, lowercase_trim, lowercase_trim,
    lowercase_eq_of_nocaseEq same]

theorem matches_congr {s t : Text} (same : normalizePattern s = normalizePattern t)
    (sameList : db'.blocklist = db.blocklist) : blocklistMatches s db' = blocklistMatches t db := by
  unfold blocklistMatches
  rw [same, sameList]

theorem not_matches_nil (db : Db) : blocklistMatches [] db = false := by
  rw [← Bool.not_eq_true, blocklistMatches_iff]
  rintro ⟨domain, cut, _⟩
  cases at_mem_lowercase.mp (at_mem_of_domainOf cut)

theorem stillListed_of_uncovered (sane : Sane db) (rejected : blocklistMatches addr db = true)
    (uncovered : patternCovers (normalizePattern pattern) (normalizePattern addr) = false) :
    StillListed pattern addr db := by
  rw [matches_iff_covered sane.valid] at rejected
  obtain ⟨entry, isEntry, covers⟩ := rejected
  rw [StillListed, matches_iff_covered (sane.deleted pattern).valid]
  refine ⟨entry, mem_deleteWhere.mpr ⟨isEntry, beq_eq_false_iff_ne.mpr fun same => ?_⟩, covers⟩
  rw [same, ← patternCovers_iff, uncovered] at covers
  cases covers

theorem AllMatched.marked {p : Contact → Bool} (marked : Marked p false db db')
    (rest : ∀ row ∈ db.contacts, row.blocked = true → p row = true ∨
      blocklistMatches row.addr db = true) : AllMatched db' := by
  intro row member isBlocked
  obtain ⟨old, isOld, _, sameAddr, blocked⟩ := marked.row member
  rw [isBlocked] at blocked
  split at blocked
  next => cases blocked
  next kept =>
    rw [matches_congr (congrArg _ sameAddr.symm) marked.blocklist]
    exact (rest old isOld blocked.symm).resolve_left kept

/-- Where a blocked contact comes from, when `remove` looks at the contacts. -/
theorem blocked_listedDb (sane : Sane db) (all : AllMatched db)
    (member : contact ∈ (listedDb pattern db).contacts) (isBlocked : contact.blocked = true) :
    (∃ old ∈ db.contacts, old.id = contact.id ∧ old.addr = contact.addr ∧ old.blocked = true ∧
      (patternCovers (normalizePattern pattern) (normalizePattern contact.addr) = true ∨
        StillListed pattern contact.addr db)) ∨
    ∃ chat ∈ db.groups, isBlockedList chat = true ∧ nocaseEq contact.addr chat.grpid = true ∧
      (ContactId.lastSpecial < contact.id ∨ ∃ old ∈ db.contacts, old.id = contact.id ∧
        old.addr = contact.addr) := by
  rcases (listedDb_added pattern db).cameFrom contact member with
    ⟨old, isOld, sameId, sameAddr, blocked⟩ | ⟨new, chat, isChat, named⟩
  · rcases blocked isBlocked with wasBlocked | ⟨chat, isChat, named⟩
    · refine Or.inl ⟨old, isOld, sameId, sameAddr, wasBlocked,
        or_iff_not_imp_left.mpr fun uncovered => ?_⟩
      exact stillListed_of_uncovered sane (sameAddr ▸ all old isOld wasBlocked)
        (by simpa using uncovered)
    · obtain ⟨isGroup, isList⟩ := List.mem_filter.mp isChat
      exact Or.inr ⟨chat, isGroup, isList, named, Or.inr ⟨old, isOld, sameId, sameAddr⟩⟩
  · obtain ⟨isGroup, isList⟩ := List.mem_filter.mp isChat
    exact Or.inr ⟨chat, isGroup, isList, named,
      Or.inl (Nat.lt_of_lt_of_le sane.contacts.next_real new)⟩

theorem stillListed_listedDb (still : StillListed pattern addr db) :
    blocklistMatches addr (listedDb pattern db) = true :=
  (matches_congr rfl (listedDb_added pattern db).blocklist).trans still

theorem stillListed_of_nocaseEq {s t : Text} (same : nocaseEq s t = true)
    (still : StillListed pattern t db) : StillListed pattern s db :=
  (matches_congr (normalizePattern_eq_of_nocaseEq same) rfl).trans still

theorem allMatched_remove (sane : Sane db) (all : AllMatched db)
    (careful : CarefulRemove pattern db) (removed : Removed pattern db db') :
    AllMatched db' := by
  refine .marked removed fun row isRow isBlocked => ?_
  have came := blocked_listedDb sane all isRow isBlocked
  by_cases real : ContactId.lastSpecial < row.id
  · rw [coveredOf_blocked isRow isBlocked real]
    rcases came with ⟨_, _, _, _, _, listed⟩ | ⟨chat, isChat, isList, named, _⟩
    · exact listed.imp_right stillListed_listedDb
    · rw [normalizePattern_eq_of_nocaseEq named]
      exact (careful.1 chat isChat isList).imp_right fun still =>
        stillListed_listedDb (stillListed_of_nocaseEq named still)
  · refine Or.inr (stillListed_listedDb ?_)
    rcases came with ⟨old, isOld, sameId, sameAddr, wasBlocked, _⟩ |
        ⟨chat, isChat, isList, named, isReal | ⟨old, isOld, sameId, sameAddr⟩⟩
    · exact sameAddr ▸ careful.2 old isOld (sameId ▸ Nat.not_lt.mp real) (Or.inl wasBlocked)
    · exact absurd isReal real
    · exact sameAddr ▸ careful.2 old isOld (sameId ▸ Nat.not_lt.mp real)
        (Or.inr ⟨chat, isChat, isList, sameAddr ▸ named⟩)

theorem allMatched_removeCut (ok : ContactsOk db) {looked : Option Nat}
    (careful : CarefulCut pattern db looked) :
    AllMatched (stateAfter (removeCut pattern looked) db) := by
  rcases removeCut_cases pattern ok looked with ⟨rfl, after⟩ | ⟨count, rfl, marked⟩
  · rw [after]
    exact careful
  · refine .marked marked fun row isRow isBlocked => ?_
    exact (careful row isRow isBlocked).imp_right stillListed_listedDb

theorem not_storable_nil : ¬Storable (normalizePattern []) := by
  rintro ⟨localPart, domain, whole, _⟩
  have member : '@' ∈ normalizePattern [] := by
    rw [whole]
    simp
  cases at_mem_lowercase.mp member

theorem stateAfter_addAddress (addr : Text) (now : Int) (db : Db) :
    stateAfter (onlyIf (!addr.isEmpty) (add addr [] now)) db =
      match validate addr with
      | .ok norm => insertEntry addr norm [] now db
      | .error _ => db := by
  cases addr with
  | nil =>
    cases valid : validate [] with
    | ok norm =>
      obtain ⟨rfl, storable⟩ := storable_of_validate valid
      exact absurd storable not_storable_nil
    | error e => rfl
  | cons c rest =>
    simp only [List.isEmpty_cons, Bool.not_false, onlyIf, if_true, add]
    cases validate (c :: rest) <;> rfl

omit [Unicode] in
theorem Marked.addr_eq {p : Contact → Bool} {newBlocking : Bool} {row : Contact}
    (ok : ContactsOk db)
    (member : contact ∈ db.contacts) (marked : Marked p newBlocking db db')
    (isRow : row ∈ db'.contacts) (isId : row.id = contact.id) : row.addr = contact.addr := by
  obtain ⟨old, isOld, sameId, sameAddr, _⟩ := marked.row isRow
  rw [← sameAddr, ok.unique isOld member (sameId.trans isId)]

theorem addr_listedDb {row : Contact} (ok : ContactsOk db) (member : contact ∈ db.contacts)
    (isRow : row ∈ (listedDb pattern db).contacts) (isId : row.id = contact.id) :
    row.addr = contact.addr := by
  rcases (listedDb_added pattern db).cameFrom row isRow with
    ⟨old, isOld, sameId, sameAddr, _⟩ | ⟨new, _⟩
  · rw [← sameAddr, ok.unique isOld member (sameId.trans isId)]
  · exact absurd (ok.ids_lt contact member) (Nat.not_lt.mpr (isId ▸ new))

theorem AllMatched.blocked {middle : Db} (all : AllMatched db) (ok : ContactsOk db)
    (member : contact ∈ db.contacts)
    (marked : Marked (fun row => row.id == contact.id) true db middle)
    (sameRows : db'.contacts = middle.contacts)
    (grown : ∀ pattern, Listed pattern db → Listed pattern db')
    (own : blocklistMatches contact.addr db' = true) : AllMatched db' := by
  intro row isRow isBlocked
  rw [sameRows] at isRow
  obtain ⟨old, isOld, sameId, sameAddr, blocked⟩ := marked.row isRow
  by_cases isId : row.id = contact.id
  · rw [marked.addr_eq ok member isRow isId]
    exact own
  · rw [if_neg (by simpa [sameId] using isId), isBlocked] at blocked
    exact sameAddr ▸ matches_mono grown (all old isOld blocked.symm)

theorem matches_insertEntry (valid : validate addr = .ok norm) (now : Int) (db : Db) :
    blocklistMatches addr (insertEntry addr norm [] now db) = true := by
  obtain ⟨isNorm, storable⟩ := storable_of_validate valid
  obtain ⟨domain, cut⟩ := (isNorm ▸ storable).exists_domainOf
  exact blocklistMatches_iff.mpr
    ⟨domain, cut, Or.inl (listed_insertEntry.mpr (Or.inr isNorm.symm))⟩

theorem allMatched_blockContact (sane : Sane db) (all : AllMatched db) {id : ContactId} {now : Int}
    (careful : Careful db (.call (.blockContact id now))) :
    AllMatched (step db (.blockContact id now)) := by
  show AllMatched (stateAfter (blockContact id now) db)
  unfold blockContact block
  rcases marking_cases sane.contacts id true
      (fun contact => onlyIf (!contact.addr.isEmpty) (add contact.addr [] now)) with
    ⟨e, run⟩ | ⟨contact, member, rfl, real, middle, marked, _, run⟩
  · rw [stateAfter, run]
    exact all
  · have isOk := careful contact member rfl real
    rw [stateAfter, run, ← stateAfter, stateAfter_addAddress]
    cases valid : validate contact.addr with
    | error e =>
      rw [valid] at isOk
      cases isOk
    | ok norm =>
      refine all.blocked sane.contacts member marked
        (congrArg Prod.fst (contacts_insertEntry ..)) (fun pattern listed => ?_)
        (matches_insertEntry valid now middle)
      rw [listed_insertEntry, Listed, marked.blocklist]
      exact Or.inl listed

theorem allMatched_blockCut (sane : Sane db) (all : AllMatched db) {id : ContactId}
    (careful : Careful db (.blockCut id)) : AllMatched (stateAfter (blockCut id) db) := by
  unfold blockCut block
  rcases marking_cases sane.contacts id true (fun _ => fail databaseError) with
    ⟨e, run⟩ | ⟨contact, member, rfl, real, middle, marked, _, run⟩
  · rw [stateAfter, run]
    exact all
  · rw [stateAfter, run, ← stateAfter]
    refine all.blocked sane.contacts member marked rfl (fun pattern listed => ?_)
      ((matches_congr rfl marked.blocklist).trans (careful contact member rfl real))
    show ∃ entry ∈ middle.blocklist, _
    rw [marked.blocklist]
    exact listed

theorem AllMatched.unmarked {p : Contact → Bool} (all : AllMatched db)
    (marked : Marked p false db db') : AllMatched db' :=
  .marked marked fun row isRow isBlocked => Or.inr (all row isRow isBlocked)

theorem StillListed.marked {p : Contact → Bool} (still : StillListed pattern addr db)
    (marked : Marked p false db db') : StillListed pattern addr db' := by
  refine (matches_congr rfl ?_).trans still
  rw [deletePattern, marked.blocklist, deletePattern]

theorem CarefulRemove.marked {p : Contact → Bool} (careful : CarefulRemove pattern db)
    (marked : Marked p false db db') : CarefulRemove pattern db' := by
  constructor
  · intro chat isChat isList
    obtain ⟨old, isOld, sameId, wasList⟩ := marked.groups chat isChat
    exact sameId ▸ (careful.1 old isOld (wasList isList)).imp_right (·.marked marked)
  · intro contact member special reason
    obtain ⟨old, isOld, oldId, sameAddr, blocked⟩ := marked.row member
    refine sameAddr ▸ (careful.2 old isOld (oldId ▸ special) ?_).marked marked
    rcases reason with isBlocked | ⟨chat, isChat, isList, named⟩
    · rw [isBlocked] at blocked
      split at blocked
      next => cases blocked
      next => exact Or.inl blocked.symm
    · obtain ⟨list, isList', sameId, wasList⟩ := marked.groups chat isChat
      exact Or.inr ⟨list, isList', wasList isList, by rw [sameAddr, sameId]; exact named⟩

theorem free_of_remove {row : Contact} (sane : Sane db) (member : contact ∈ db.contacts)
    (real : ContactId.lastSpecial < contact.id) (removed : Removed contact.addr db db')
    (isRow : row ∈ db'.contacts) (isId : row.id = contact.id) :
    row.blocked = false ∧ row.addr = contact.addr := by
  obtain ⟨old, isOld, oldId, sameAddr, blocked⟩ := removed.row isRow
  have oldAddr := addr_listedDb sane.contacts member isOld (oldId.trans isId)
  refine ⟨?_, sameAddr ▸ oldAddr⟩
  rw [blocked]
  split
  next => rfl
  next kept =>
    -- A contact that a list blocked again is covered by its own address.
    by_contra isBlocked
    refine kept ?_
    rw [coveredOf_blocked isOld (by simpa using isBlocked) (oldId.trans isId ▸ real), oldAddr]
    exact patternCovers_iff.mpr (Or.inl rfl)

theorem whole_unblockContact (sane : Sane db) (all : AllMatched db) {id : ContactId}
    (careful : Careful db (.call (.unblockContact id))) :
    Whole db (.call (.unblockContact id)) := by
  show AllMatched (stateAfter (unblockContact id) db) ∧
    ∀ db', (unblockContact id).run db = .ok () db' → _
  unfold unblockContact unblock
  rcases marking_cases sane.contacts id false
      (fun contact => onlyIf (!contact.addr.isEmpty) (remove contact.addr)) with
    ⟨e, run⟩ | ⟨contact, member, rfl, real, middle, marked, _, run⟩
  · rw [stateAfter, run]
    refine ⟨all, fun _ failed => ?_⟩
    cases failed
  obtain ⟨unlisted, carefully⟩ := careful contact member rfl real
  have saneMiddle := sane.marked marked
  have allMiddle := all.unmarked marked
  rw [stateAfter, run, ← stateAfter]
  cases empty : contact.addr.isEmpty with
  | true =>
    refine ⟨allMiddle, fun db' done row isRow isId => ?_⟩
    obtain ⟨-, rfl⟩ := EStateM.Result.ok.inj done
    obtain ⟨old, isOld, oldId, _, blocked⟩ := marked.row isRow
    rw [if_pos (by simpa using oldId.trans isId)] at blocked
    rw [marked.addr_eq sane.contacts member isRow isId, List.isEmpty_iff.mp empty]
    exact ⟨blocked, not_matches_nil middle⟩
  | false =>
    obtain ⟨there, isThere, sameId⟩ : ∃ there ∈ middle.contacts, there.id = contact.id := by
      refine ⟨_, marked.contacts ▸ mem_updateWhere.mpr ⟨contact, member, rfl⟩, ?_⟩
      split <;> rfl
    have sameAddr := marked.addr_eq sane.contacts member isThere sameId
    obtain ⟨last, removing, removed⟩ := exists_removed contact.addr saneMiddle.contacts
    have ran : (onlyIf (!false) (remove contact.addr)).run middle = .ok () last := removing
    rw [ran, stateAfter_of_ok ran]
    refine ⟨allMatched_remove saneMiddle allMiddle ((carefully empty).marked marked) removed,
      fun db' done row isRow isId => ?_⟩
    obtain ⟨-, rfl⟩ := EStateM.Result.ok.inj done
    obtain ⟨isFree, rowAddr⟩ := free_of_remove saneMiddle isThere (sameId ▸ real)
      (sameAddr ▸ removed) isRow (isId.trans sameId.symm)
    refine ⟨isFree, ?_⟩
    have sameList : last.blocklist = (deletePattern contact.addr db).blocklist := by
      rw [removed.blocklist, (listedDb_added contact.addr middle).blocklist, deletePattern,
        marked.blocklist, deletePattern]
    rw [rowAddr, sameAddr, matches_congr rfl sameList]
    exact Bool.eq_false_iff.mpr unlisted

theorem allMatched_unblockCut (sane : Sane db) (all : AllMatched db) {id : ContactId}
    {removing : Option (Option Nat)} (careful : Careful db (.unblockCut id removing)) :
    AllMatched (stateAfter (unblockCut id removing) db) := by
  unfold unblockCut unblock
  cases removing with
  | none =>
    rcases marking_cases sane.contacts id false (fun _ => fail databaseError) with
      ⟨e, run⟩ | ⟨_, _, _, _, middle, marked, _, run⟩
    · rw [stateAfter, run]
      exact all
    · rw [stateAfter, run]
      exact all.unmarked marked
  | some looked =>
    rcases marking_cases sane.contacts id false
        (fun contact => onlyIf (!contact.addr.isEmpty) (removeCut contact.addr looked)) with
      ⟨e, run⟩ | ⟨contact, member, rfl, real, middle, marked, unblocking, run⟩
    · rw [stateAfter, run]
      exact all
    · rw [stateAfter, run, ← stateAfter]
      cases empty : contact.addr.isEmpty with
      | true => exact all.unmarked marked
      | false =>
        have carefully := careful contact member rfl real empty
        rw [unblock, stateAfter_of_ok unblocking] at carefully
        exact allMatched_removeCut (sane.marked marked).contacts carefully

theorem preserves_sane_removeCut (pattern : Text) (looked : Option Nat) :
    Preserves Sane (removeCut pattern looked) := by
  intro db sane
  rcases removeCut_cases pattern sane.contacts looked with ⟨_, after⟩ | ⟨_, _, marked⟩
  · rw [after]
    exact sane.deleted pattern
  · exact (sane.listed pattern).marked marked

theorem sane_move (sane : Sane db) (happens : Move) : Sane (move db happens) := by
  have failing : Preserves Sane (fail databaseError : DbAction Unit) := fun _ sane => sane
  cases happens with
  | call call => exact sane_step sane call
  | removeCut pattern looked => exact preserves_sane_removeCut pattern looked db sane
  | blockCut id => exact preserves_sane_marking id true (fun _ => failing) db sane
  | unblockCut id removing =>
    cases removing with
    | none => exact preserves_sane_marking id false (fun _ => failing) db sane
    | some looked =>
      exact preserves_sane_marking id false (fun contact =>
        Preserves.onlyIf _ (preserves_sane_removeCut contact.addr looked)) db sane

theorem whole_of_careful (db : Db) (happens : Move) (good : Sane db ∧ AllMatched db)
    (careful : Careful db happens) :
    Whole db happens ∧ Sane (move db happens) ∧ AllMatched (move db happens) := by
  obtain ⟨sane, all⟩ := good
  have saneAfter := sane_move sane happens
  rcases happens with call | ⟨pattern, looked⟩ | id | ⟨id, removing⟩
  · cases call with
    | add pattern reason now =>
      have after : AllMatched (stateAfter (add pattern reason now) db) := by
        unfold add
        split
        next => exact all
        next norm _ =>
          have sameRows := congrArg Prod.fst (contacts_insertEntry pattern norm reason now db)
          exact fun contact member isBlocked =>
            matches_mono (fun other listed => listed_insertEntry.mpr (Or.inl listed))
              (all contact (sameRows.subst member) isBlocked)
      exact ⟨after, saneAfter, after⟩
    | remove pattern =>
      obtain ⟨db', removing, removed⟩ := exists_removed pattern sane.contacts
      have after : AllMatched (stateAfter (remove pattern) db) := by
        rw [stateAfter_of_ok removing]
        exact allMatched_remove sane all careful removed
      exact ⟨after, saneAfter, after⟩
    | blockContact id now =>
      have after := allMatched_blockContact sane all careful
      exact ⟨after, saneAfter, after⟩
    | unblockContact id =>
      have after := whole_unblockContact sane all careful
      exact ⟨after, saneAfter, after.1⟩
  · have after := allMatched_removeCut sane.contacts careful
    exact ⟨after, saneAfter, after⟩
  · have after := allMatched_blockCut sane all careful
    exact ⟨after, saneAfter, after⟩
  · have after := allMatched_unblockCut sane all careful
    exact ⟨after, saneAfter, after⟩

/-- From an empty list and no blocked contact, a run of careful calls leaves no block half
done, wherever the database fails. -/
theorem blocks_whole_of_careful {db : Db} (ok : ContactsOk db) (empty : db.blocklist = [])
    (unblocked : ∀ contact ∈ db.contacts, contact.blocked = false) (moves : List Move)
    (careful : MeetsAll move Careful db moves) : MeetsAll move Whole db moves := by
  refine meetsAll_mono whole_of_careful moves db
    ⟨sane_empty ok empty, fun contact member isBlocked => ?_⟩ careful
  rw [unblocked contact member] at isBlocked
  cases isBlocked

end

section

local instance : Unicode := asciiTables

def twoKnown : Db :=
  { contacts := [{ id := 10, addr := "root@localhost".toList },
      { id := 11, addr := "bob@spam.example".toList }]
    nextContactId := 12
    groups :=
      [{ id := 20, typ := .mailinglist, grpid := "news@shop.example".toList, blocked := .yes }] }

theorem contactsOk_twoKnown : ContactsOk twoKnown := ⟨by decide, by decide, by decide⟩

/-- Blocking the local user fails after they were marked: they are blocked and their mail
is not rejected.  Unblocking somebody whose domain is listed succeeds, and their mail is
still rejected.  Removing any pattern blocks the list, whose mail is not rejected.  And a
removal that fails leaves somebody blocked whose mail is not rejected. -/
theorem blocks_half_done : (EmailAddress.new "root@localhost".toList).isOk = true ∧
      ¬AllMatched (step twoKnown (.blockContact 10 0)) ∧
      returns (unblockContact 11)
        (runAll step twoKnown [.add "@spam.example".toList [] 0, .blockContact 11 0]) () = true ∧
      blocklistMatches "bob@spam.example".toList (runAll step twoKnown
        [.add "@spam.example".toList [] 0, .blockContact 11 0, .unblockContact 11]) = true ∧
      ¬AllMatched (step twoKnown (.remove "@a.b".toList)) ∧
      ¬AllMatched (runAll move twoKnown
        [.call (.blockContact 11 0), .removeCut "bob@spam.example".toList none]) := by
  decide +kernel

theorem blocks_whole_of_bob :
    MeetsAll move Whole twoKnown
      [.call (.add "@shop.example".toList [] 0), .call (.blockContact 11 0),
        .removeCut "bob@spam.example".toList (some 2), .call (.blockContact 11 0),
        .call (.unblockContact 11)] :=
  blocks_whole_of_careful contactsOk_twoKnown rfl (by decide) _ (by decide +kernel)

end

end Eeemail.Blocking
