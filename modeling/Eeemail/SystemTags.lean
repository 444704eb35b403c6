import Eeemail.ReservedLabels

/-! # System tags

`core/src/email/tags.rs`: the tags that every account has.  Three of them are
reserved labels, the other three follow from the state of a message.  What
`of_msg` says about one message and what `messages` lists agree, except that a
draft, which is hidden, is listed under `Drafts` and nowhere else. -/

set_option autoImplicit false

namespace Eeemail.SystemTags

open Lib.Texts Lib.Actions Lib.Tables Store Labels ReservedLabels

inductive SystemTag where
  | inbox
  | unverified
  | sent
  | drafts
  | archive
  | trash
  deriving DecidableEq, Repr

namespace SystemTag

def all : List SystemTag := [.inbox, .unverified, .sent, .drafts, .archive, .trash]

def storedName : SystemTag → Option Text
  | .archive => some archiveName
  | .trash => some trashName
  | .unverified => some unverifiedName
  | .inbox | .sent | .drafts => none

theorem mem_all (tag : SystemTag) : tag ∈ all := by
  cases tag <;> decide

theorem storedName_reserved {tag : SystemTag} {name : Text} (stored : tag.storedName = some name) :
    name ∈ reservedNames := by
  cases tag <;> simp_all [storedName, reservedNames]

end SystemTag

structure Tags where
  system : List SystemTag := []
  user : List Label := []

def stateNumber : MessageState → Nat
  | .undefined => 0
  | .inFresh => 10
  | .inNoticed => 13
  | .inSeen => 16
  | .outDraft => 19
  | .outPending => 20
  | .outFailed => 24
  | .outDelivered => 26
  | .outMdnRcvd => 28

def isOutgoing : MessageState → Bool
  | .outDraft | .outPending | .outFailed | .outDelivered | .outMdnRcvd => true
  | .undefined | .inFresh | .inNoticed | .inSeen => false

def isIncoming (state : MessageState) : Bool :=
  decide (stateNumber .inFresh ≤ stateNumber state) &&
    decide (stateNumber state < stateNumber .outDraft)

/-! ## The tags of a message -/

def labelsOfMsg (msgId : MsgId) (db : Db) : List Label :=
  ((db.msgLabels.filter fun row => row.msgId == msgId).flatMap fun row =>
      db.labels.filter fun label => label.id == row.labelId).insertionSort fun a b =>
    (a.system && !b.system) = true ∨ (a.system = b.system ∧ a.nameNorm ≤ b.nameNorm)

def stateOf (msgId : MsgId) (db : Db) : Option MessageState := (db.msgById msgId).map (·.state)

def storedNames (msgId : MsgId) (db : Db) : List Text :=
  ((labelsOfMsg msgId db).filter (·.system)).map (·.name)

def derived (msgId : MsgId) (tag : SystemTag) (stored : List Text) (db : Db) : Bool :=
  match stateOf msgId db with
  | none => false
  | some state =>
    match tag with
    | .drafts => state == .outDraft
    | .sent => isOutgoing state && state != .outDraft
    | .inbox => isIncoming state && stored.isEmpty
    | .archive | .trash | .unverified => false

def present (msgId : MsgId) (db : Db) (tag : SystemTag) : Bool :=
  match tag.storedName with
  | some name => (storedNames msgId db).any fun stored => nocaseEq stored name
  | none => derived msgId tag (storedNames msgId db) db

def ofMsg (msgId : MsgId) (db : Db) : Tags where
  system := SystemTag.all.filter (present msgId db)
  user := (labelsOfMsg msgId db).filter fun label => !label.system

def filed (msgId : MsgId) (db : Db) : Bool :=
  db.msgLabels.any fun row =>
    row.msgId == msgId && db.labels.any fun label => label.id == row.labelId && label.system

def inView (tag : SystemTag) (msg : Message) (db : Db) : Bool :=
  match tag with
  | .drafts => stateNumber msg.state == stateNumber .outDraft
  | .sent => decide (stateNumber .outDraft < stateNumber msg.state)
  | .inbox =>
    decide (stateNumber .inFresh ≤ stateNumber msg.state) &&
      decide (stateNumber msg.state < stateNumber .outDraft) && !filed msg.id db
  -- Not reached: these are stored.
  | .archive | .trash | .unverified => false

def derivedMessages (tag : SystemTag) (db : Db) : List MsgId :=
  (newestFirst (db.msgs.filter fun msg =>
    msg.isLive && (tag == .drafts || !msg.hidden) && inView tag msg db)).map (·.id)

section

variable [Unicode]

def messages (tag : SystemTag) : DbAction (List MsgId) :=
  match tag.storedName with
  | some name => do
    let label ← reserved name
    query (msgsWith label.id)
  | none => query (derivedMessages tag)

/-! ## Agreement -/

variable {ids : Text → LabelId} {db : Db} {msg : Message} {msgId : MsgId}

omit [Unicode] in
theorem mem_labelsOfMsg {label : Label} :
    label ∈ labelsOfMsg msgId db ↔
      label ∈ db.labels ∧ { msgId, labelId := label.id } ∈ db.msgLabels := by
  simp only [labelsOfMsg, List.mem_insertionSort, List.mem_flatMap, List.mem_filter, beq_iff_eq]
  constructor
  · rintro ⟨row, ⟨rowMember, rfl⟩, member, isLabel⟩
    rw [isLabel]
    exact ⟨member, rowMember⟩
  · rintro ⟨member, rowMember⟩
    exact ⟨_, ⟨rowMember, rfl⟩, member, rfl⟩

omit [Unicode] in
theorem mem_storedNames {name : Text} :
    name ∈ storedNames msgId db ↔
      ∃ label ∈ db.labels, label.system = true ∧ label.name = name ∧
        { msgId, labelId := label.id } ∈ db.msgLabels := by
  simp only [storedNames, List.mem_map, List.mem_filter, mem_labelsOfMsg]
  constructor
  · rintro ⟨label, ⟨⟨member, row⟩, system⟩, named⟩
    exact ⟨label, member, system, named, row⟩
  · rintro ⟨label, member, system, named, row⟩
    exact ⟨label, ⟨⟨member, row⟩, system⟩, named⟩

omit [Unicode] in
theorem filed_iff :
    filed msgId db = true ↔ (storedNames msgId db).isEmpty = false := by
  rw [List.isEmpty_eq_false_iff_exists_mem]
  simp only [filed, List.any_eq_true, Bool.and_eq_true, beq_iff_eq, mem_storedNames]
  constructor
  · rintro ⟨row, rowMember, rfl, label, member, isLabel, system⟩
    refine ⟨label.name, label, member, system, rfl, ?_⟩
    rw [isLabel]
    exact rowMember
  · rintro ⟨_, label, member, system, rfl, row⟩
    exact ⟨_, row, rfl, label, member, rfl, system⟩

omit [Unicode] in
theorem eq_of_nocaseEq_reserved : ∀ first ∈ reservedNames, ∀ second ∈ reservedNames,
    nocaseEq first second = true → first = second := by
  decide

theorem present_stored (ok : LabelsOk ids db) {tag : SystemTag} {name : Text}
    (stored : tag.storedName = some name) :
    present msgId db tag = true ↔ { msgId, labelId := ids name } ∈ db.msgLabels := by
  have isReserved := SystemTag.storedName_reserved stored
  simp only [present, stored, List.any_eq_true, mem_storedNames]
  constructor
  · rintro ⟨_, ⟨label, member, system, rfl, row⟩, same⟩
    have named := eq_of_nocaseEq_reserved _ (ok.system label member system) _ isReserved same
    obtain ⟨own, ownMember, ownNamed, _, ident⟩ := ok.reserved name isReserved
    have sameRow : label = own := by
      refine eq_of_key_eq ok.norms_nodup member ownMember ?_
      rw [ok.norms label member, ok.norms own ownMember, named, ownNamed]
    rw [← ident, ← sameRow]
    exact row
  · intro row
    obtain ⟨own, ownMember, ownNamed, system, ident⟩ := ok.reserved name isReserved
    refine ⟨name, ⟨own, ownMember, system, ownNamed, ?_⟩, nocaseEq_iff.mpr rfl⟩
    rw [ident]
    exact row

omit [Unicode] in
theorem present_derived (unique : (db.msgs.map (·.id)).Nodup) (member : msg ∈ db.msgs)
    {tag : SystemTag} (notStored : tag.storedName = none) :
    present msg.id db tag = inView tag msg db := by
  have found : db.msgById msg.id = some msg := find?_of_nodup unique member
  have isFiled : (storedNames msg.id db).isEmpty = !filed msg.id db := by
    cases filing : filed msg.id db with
    | true => exact filed_iff.mp filing
    | false =>
      rw [Bool.not_false, ← Bool.not_eq_false]
      intro some
      rw [filed_iff.mpr some] at filing
      cases filing
  simp only [present, notStored, derived, stateOf, found, Option.map_some]
  cases tag with
  | inbox => simp only [isIncoming, inView, isFiled]
  | sent => cases state : msg.state <;> simp [inView, state, isOutgoing, stateNumber]
  | drafts => cases state : msg.state <;> simp [inView, state, stateNumber]
  | unverified | archive | trash => cases notStored

omit [Unicode] in
theorem id_mem_map_newestFirst (unique : (db.msgs.map (·.id)).Nodup) (member : msg ∈ db.msgs)
    (selected : Message → Bool) :
    msg.id ∈ (newestFirst (db.msgs.filter selected)).map (·.id) ↔ selected msg = true := by
  simp only [List.mem_map, newestFirst, List.mem_insertionSort, List.mem_filter]
  constructor
  · rintro ⟨other, ⟨otherMember, isSelected⟩, same⟩
    rw [← eq_of_key_eq unique otherMember member same]
    exact isSelected
  · intro isSelected
    exact ⟨msg, ⟨member, isSelected⟩, rfl⟩

/-- The view of a tag lists a message exactly if the message has the tag, hidden
drafts being listed under `Drafts` only. -/
theorem tags_agree (ok : LabelsOk ids db) (unique : (db.msgs.map (·.id)).Nodup)
    (member : msg ∈ db.msgs) (live : msg.isLive = true)
    (shown : msg.hidden = false ∨ msg.state = .outDraft) (tag : SystemTag) :
    ∃ listed, (messages tag).run db = .ok listed db ∧
      (msg.id ∈ listed ↔
        tag ∈ (ofMsg msg.id db).system ∧ (msg.hidden = false ∨ tag = .drafts)) := by
  have tagged : tag ∈ (ofMsg msg.id db).system ↔ present msg.id db tag = true := by
    simp [ofMsg, SystemTag.mem_all]
  rw [tagged]
  cases stored : tag.storedName with
  | some name =>
    obtain ⟨label, _, _, _, ident, read⟩ :=
      ok.reserved_run (SystemTag.storedName_reserved stored)
    have notDrafts : tag ≠ .drafts := by
      rintro rfl
      cases stored
    refine ⟨msgsWith label.id db, ?_, ?_⟩
    · simp only [messages, stored]
      exact bind_eq_ok.mpr ⟨label, db, read, rfl⟩
    · rw [msgsWith, id_mem_map_newestFirst unique member, present_stored ok stored, ident]
      simp [live, notDrafts, and_comm]
  | none =>
    refine ⟨derivedMessages tag db, ?_, ?_⟩
    · simp only [messages, stored]
      rfl
    · rw [derivedMessages, id_mem_map_newestFirst unique member,
        present_derived unique member stored]
      simp only [live, Bool.true_and, Bool.and_eq_true, Bool.or_eq_true, beq_iff_eq,
        Bool.not_eq_true']
      tauto

end

section

local instance : Unicode := asciiTables

def archivedDraft : Db :=
  { labels := migratedLabels
    nextLabelId := 4
    msgs :=
      [{ id := 10, chatId := 10, state := .inSeen },
       { id := 11, chatId := 10, state := .outDraft, hidden := true }]
    msgLabels := [⟨10, 1⟩, ⟨11, 1⟩] }

theorem archived_message_listed :
    ∃ listed, (messages .archive).run archivedDraft = .ok listed archivedDraft ∧
      (10 ∈ listed ↔ SystemTag.archive ∈ (ofMsg 10 archivedDraft).system ∧
        (false = false ∨ SystemTag.archive = .drafts)) := by
  have ok : LabelsOk migratedIds archivedDraft := labelsOk_migrated rfl rfl
  have member : ({ id := 10, chatId := 10, state := .inSeen } : Message) ∈ archivedDraft.msgs :=
    List.mem_cons_self
  exact tags_agree ok (by decide) member rfl (Or.inl rfl) .archive

theorem archived_draft_not_listed : (ofMsg 11 archivedDraft).system = [.drafts, .archive] ∧
      (messages .archive).run archivedDraft = .ok [10] archivedDraft := by
  refine ⟨by decide +kernel, run_of_returns (by decide +kernel)⟩

end

end Eeemail.SystemTags
