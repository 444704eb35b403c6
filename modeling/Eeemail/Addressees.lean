import Eeemail.MimeFactory

/-! # From recipients to envelope and keys

Which addresses a message with a stored recipient set is sent and encrypted to:
`recipients::store` and `load` keep the first entry of each kind and address,
`extra_recipients` keeps what the member of the chat does not cover, and
`from_msg` drops from an encrypted message whoever has no key. -/

set_option autoImplicit false

namespace Eeemail.Addressees

open Lib.Texts Lib.Tables Addr Store Contacts Recipients MimeFactory

variable {recipients : List Recipient} {addr : Text} {already : List Text}

/-! ## The stored set -/

def kindRows (msgId : MsgId) (kind : RecipientKind) (rows : List MsgRecipient) :
    List MsgRecipient :=
  rows.filter fun row => row.msgId == msgId && row.kind == kind

def recipientOf (row : MsgRecipient) : Recipient :=
  { kind := row.kind, addr := row.addr, name := row.name }

def firstPerAddr (recipients : List Recipient) : List Recipient :=
  recipients.foldl (fun rows row => insertOrIgnore (·.addr) row rows) []

variable {msgId : MsgId} {kind : RecipientKind}

theorem kindRows_insertOrIgnore_same {rows : List MsgRecipient} {row : MsgRecipient}
    (isMsg : row.msgId = msgId) (isKind : row.kind = kind) :
    kindRows msgId kind (insertOrIgnore (fun row => (row.msgId, row.kind, row.addr)) row rows) =
      insertOrIgnore (·.addr) row (kindRows msgId kind rows) := by
  have clash : (rows.any fun old =>
      decide ((old.msgId, old.kind, old.addr) = (row.msgId, row.kind, row.addr))) =
      ((kindRows msgId kind rows).any fun old => decide (old.addr = row.addr)) := by
    rw [kindRows, List.any_filter, isMsg, isKind]
    congr 1
    funext old
    simp only [Prod.mk.injEq, Bool.decide_and, beq_eq_decide, Bool.and_assoc]
  unfold insertOrIgnore
  rw [clash]
  split
  · rfl
  · rw [kindRows, List.filter_append]
    simp [kindRows, isMsg, isKind]

theorem kindRows_insertOrIgnore_other {rows : List MsgRecipient} {row : MsgRecipient}
    (otherKind : row.kind ≠ kind) :
    kindRows msgId kind (insertOrIgnore (fun row => (row.msgId, row.kind, row.addr)) row rows) =
      kindRows msgId kind rows := by
  unfold insertOrIgnore
  split
  · rfl
  · rw [kindRows, List.filter_append]
    simp [kindRows, otherKind]

theorem kindRows_insertRows (msgId : MsgId) (kind : RecipientKind)
    (recipients : List Recipient) (ord : Nat) (rows : List MsgRecipient)
    (below : ∀ row ∈ kindRows msgId kind rows, row.ord < ord)
    (sorted : (kindRows msgId kind rows).Pairwise fun a b => a.ord ≤ b.ord) :
    ((kindRows msgId kind (insertRows msgId recipients ord rows)).Pairwise
        fun a b => a.ord ≤ b.ord) ∧
      (kindRows msgId kind (insertRows msgId recipients ord rows)).map recipientOf =
        (recipients.filter fun recipient => recipient.kind == kind).foldl
          (fun rows row => insertOrIgnore (·.addr) row rows)
          ((kindRows msgId kind rows).map recipientOf) := by
  induction recipients generalizing ord rows with
  | nil => exact ⟨sorted, rfl⟩
  | cons recipient rest ih =>
    simp only [insertRows, List.filter_cons]
    by_cases isKind : recipient.kind = kind
    · have inserted : kindRows msgId kind (insertOrIgnore
          (fun row => (row.msgId, row.kind, row.addr))
          { msgId, kind := recipient.kind, addr := recipient.addr, name := recipient.name, ord }
          rows) = insertOrIgnore (·.addr)
            { msgId, kind := recipient.kind, addr := recipient.addr, name := recipient.name,
              ord } (kindRows msgId kind rows) :=
        kindRows_insertOrIgnore_same rfl isKind
      rw [if_pos (beq_iff_eq.mpr isKind), List.foldl_cons]
      generalize insertOrIgnore (fun row : MsgRecipient => (row.msgId, row.kind, row.addr)) _
        rows = grown at inserted ⊢
      have grownBelow : ∀ row ∈ kindRows msgId kind grown, row.ord < ord + 1 := by
        rw [inserted]
        intro row member
        rcases mem_insertOrIgnore.mp member with old | ⟨rfl, _⟩
        · exact Nat.lt_succ_of_lt (below row old)
        · exact Nat.lt_succ_self ord
      have grownSorted : (kindRows msgId kind grown).Pairwise fun a b => a.ord ≤ b.ord := by
        rw [inserted]
        exact pairwise_insertOrIgnore sorted fun row member => le_of_lt (below row member)
      obtain ⟨laterSorted, laterRows⟩ := ih (ord + 1) grown grownBelow grownSorted
      refine ⟨laterSorted, laterRows.trans ?_⟩
      have mapped : (kindRows msgId kind grown).map recipientOf =
          insertOrIgnore (·.addr) recipient ((kindRows msgId kind rows).map recipientOf) := by
        rw [inserted]
        exact map_insertOrIgnore recipientOf Recipient.addr _ _
      rw [mapped]
    · have skipped : kindRows msgId kind (insertOrIgnore
          (fun row => (row.msgId, row.kind, row.addr))
          { msgId, kind := recipient.kind, addr := recipient.addr, name := recipient.name, ord }
          rows) = kindRows msgId kind rows :=
        kindRows_insertOrIgnore_other isKind
      have wrongKind : ¬(recipient.kind == kind) = true := by simpa using isKind
      rw [if_neg wrongKind]
      generalize insertOrIgnore (fun row : MsgRecipient => (row.msgId, row.kind, row.addr)) _
        rows = grown at skipped ⊢
      rw [← skipped] at below sorted ⊢
      exact ih (ord + 1) grown (fun row member => Nat.lt_succ_of_lt (below row member)) sorted

theorem loadKind_congr {db db' : Db} (same : db'.msgRecipients = db.msgRecipients) :
    loadKind msgId kind db' = loadKind msgId kind db := by
  rw [loadKind, loadKind, same]

theorem loadKind_store (recipients : List Recipient) (db : Db) :
    loadKind msgId kind (store msgId recipients db) =
      firstPerAddr (recipients.filter fun recipient => recipient.kind == kind) := by
  have gone : kindRows msgId kind
      (deleteWhere (fun row => row.msgId == msgId) db.msgRecipients) = [] := by
    refine List.filter_eq_nil_iff.mpr fun row member => ?_
    simp [(mem_deleteWhere.mp member).2]
  obtain ⟨sorted, rows⟩ := kindRows_insertRows msgId kind recipients 0
    (deleteWhere (fun row => row.msgId == msgId) db.msgRecipients)
    (by simp [gone]) (by simp [gone])
  unfold loadKind firstPerAddr
  rw [gone] at rows
  refine Eq.trans ?_ rows
  exact congrArg (List.map recipientOf) sorted.insertionSort_eq

theorem mem_firstPerAddr :
    addr ∈ (firstPerAddr recipients).map (·.addr) ↔ addr ∈ recipients.map (·.addr) := by
  refine (mem_map_foldl_insertOrIgnore (fun row : Recipient => row)).trans ?_
  simp

theorem foldl_insertOrIgnore_subset {rows : List Recipient} {recipient : Recipient}
    (member : recipient ∈
      recipients.foldl (fun rows row => insertOrIgnore (·.addr) row rows) rows) :
    recipient ∈ rows ∨ recipient ∈ recipients := by
  induction recipients generalizing rows with
  | nil => exact Or.inl member
  | cons first rest ih =>
    rcases ih member with old | later
    · rcases mem_insertOrIgnore.mp old with older | ⟨rfl, _⟩
      · exact Or.inl older
      · exact Or.inr List.mem_cons_self
    · exact Or.inr (List.mem_cons_of_mem _ later)

theorem firstPerAddr_subset {recipient : Recipient} (member : recipient ∈ firstPerAddr recipients) :
    recipient ∈ recipients :=
  (foldl_insertOrIgnore_subset member).resolve_left (List.not_mem_nil)

section

variable [Unicode]

/-! ## Addressees beyond the chat -/

theorem pickExtra_append (already seen : List Text) (first second : List Recipient) :
    pickExtra already seen (first ++ second) =
      pickExtra already seen first ++
        pickExtra already (((pickExtra already seen first).map (·.addr)).reverse ++ seen)
          second := by
  induction first generalizing seen with
  | nil => rfl
  | cons recipient rest ih =>
    simp only [List.cons_append, pickExtra]
    split
    · exact ih seen
    · rw [ih]
      simp

theorem pickExtra_of_to {seen : List Text} (isTo : ∀ recipient ∈ recipients, recipient.kind = .to) :
    pickExtra already seen recipients = [] := by
  induction recipients with
  | nil => rfl
  | cons recipient rest ih =>
    rw [pickExtra, if_pos (Or.inl (isTo recipient List.mem_cons_self))]
    exact ih fun other member => isTo other (List.mem_cons_of_mem _ member)

theorem kind_of_mem_pickExtra (already seen : List Text) {kind : RecipientKind}
    (isKind : ∀ recipient ∈ recipients, recipient.kind = kind) :
    ∀ recipient ∈ pickExtra already seen recipients, recipient.kind = kind := by
  induction recipients generalizing seen with
  | nil =>
    intro _ member
    cases member
  | cons first rest ih =>
    have restKind : ∀ recipient ∈ rest, recipient.kind = kind :=
      fun other member => isKind other (List.mem_cons_of_mem _ member)
    rw [pickExtra]
    split
    · exact ih _ restKind
    · intro recipient member
      rcases List.mem_cons.mp member with rfl | later
      · exact isKind first List.mem_cons_self
      · exact ih _ restKind recipient later

theorem mem_pickExtra {seen : List Text} :
    addr ∈ (pickExtra already seen recipients).map (·.addr) ↔
      (∃ recipient ∈ recipients, recipient.kind ≠ .to ∧ addrNormalize recipient.addr = addr) ∧
        addr ∉ already ∧ addr ∉ seen := by
  induction recipients generalizing seen with
  | nil => simp [pickExtra]
  | cons first rest ih =>
    rw [pickExtra]
    simp only [List.contains_iff_mem, List.exists_mem_cons_iff]
    split
    next skipped =>
      rw [ih]
      constructor
      · rintro ⟨found, fresh⟩
        exact ⟨Or.inr found, fresh⟩
      · rintro ⟨⟨notTo, rfl⟩ | found, fresh⟩
        · exact absurd skipped (by tauto)
        · exact ⟨found, fresh⟩
    next kept =>
      rw [List.map_cons, List.mem_cons, ih, List.mem_cons]
      by_cases same : addr = addrNormalize first.addr
      · subst same
        simp only [true_or, not_true_eq_false, and_true, true_iff]
        tauto
      · simp only [same, false_or]
        have other : ¬addrNormalize first.addr = addr := fun equal => same equal.symm
        simp only [other, and_false, false_or]

theorem mem_pickExtra_of_notTo (notTo : ∀ recipient ∈ recipients, recipient.kind ≠ .to) :
    addr ∈ (pickExtra already [] recipients).map (·.addr) ↔
      (∃ recipient ∈ recipients, addrNormalize recipient.addr = addr) ∧ addr ∉ already := by
  rw [mem_pickExtra]
  constructor
  · rintro ⟨⟨recipient, member, _, same⟩, fresh, _⟩
    exact ⟨⟨recipient, member, same⟩, fresh⟩
  · rintro ⟨⟨recipient, member, same⟩, fresh⟩
    exact ⟨⟨recipient, member, notTo recipient member, same⟩, fresh, List.not_mem_nil⟩

omit [Unicode] in
theorem filter_kind_same (isKind : ∀ recipient ∈ recipients, recipient.kind = kind) :
    recipients.filter (fun recipient => recipient.kind == kind) = recipients :=
  List.filter_eq_self.mpr fun recipient member => by simp [isKind recipient member]

omit [Unicode] in
theorem filter_kind_other {other : RecipientKind}
    (isKind : ∀ recipient ∈ recipients, recipient.kind = kind) (different : kind ≠ other) :
    recipients.filter (fun recipient => recipient.kind == other) = [] :=
  List.filter_eq_nil_iff.mpr fun recipient member => by simp [isKind recipient member, different]

def extraEntry (db : Db) (recipient : Recipient) : ExtraRecipient :=
  { name := recipient.name, addr := recipient.addr, key := lookupKey recipient.addr db }

theorem extraRecipients_eq {db : Db} (already : List Text) {toList ccList bccList : List Recipient}
    (loaded : load msgId db = toList ++ ccList ++ bccList)
    (toKind : ∀ recipient ∈ toList, recipient.kind = .to)
    (ccKind : ∀ recipient ∈ ccList, recipient.kind = .cc)
    (bccKind : ∀ recipient ∈ bccList, recipient.kind = .bcc) :
    extraRecipients msgId already db =
      { cc := (pickExtra (already.map addrNormalize) [] ccList).map (extraEntry db)
        bcc := (pickExtra (already.map addrNormalize)
          ((pickExtra (already.map addrNormalize) [] ccList).map (·.addr)).reverse bccList).map
            (extraEntry db) } := by
  unfold extraRecipients
  rw [loaded, List.append_assoc, pickExtra_append, pickExtra_of_to toKind, List.nil_append,
    List.map_nil, List.reverse_nil, List.nil_append, pickExtra_append, List.append_nil]
  have ccPicked := kind_of_mem_pickExtra (already.map addrNormalize) [] ccKind
  have bccPicked := kind_of_mem_pickExtra (already.map addrNormalize)
    ((pickExtra (already.map addrNormalize) [] ccList).map (·.addr)).reverse bccKind
  simp only [List.filter_append, filter_kind_same ccPicked, filter_kind_same bccPicked,
    filter_kind_other ccPicked (by decide : RecipientKind.cc ≠ .bcc),
    filter_kind_other bccPicked (by decide : RecipientKind.bcc ≠ .cc), List.append_nil,
    List.nil_append]
  rfl

/-! ## Envelope and keys -/

/-- The addressees the chat does not cover, as they are read back: their addresses
come from the Cc and Bcc rows, their keys from `lookup_key`. -/
structure ExtraOf (already : List Text) (ccList bccList : List Recipient) (db : Db)
    (extra : ExtraRecipients) : Prop where
  mem_cc : ∀ addr, addr ∈ extra.cc.map (·.addr) ↔
    (∃ recipient ∈ ccList, addrNormalize recipient.addr = addr) ∧
      addr ∉ already.map addrNormalize
  mem_all : ∀ addr, addr ∈ extra.all.map (·.addr) ↔
    (∃ recipient ∈ ccList ++ bccList, addrNormalize recipient.addr = addr) ∧
      addr ∉ already.map addrNormalize
  key_eq : ∀ entry ∈ extra.all, entry.key = lookupKey entry.addr db

omit [Unicode] in
theorem map_addr_extraEntry (db : Db) (recipients : List Recipient) :
    (recipients.map (extraEntry db)).map (·.addr) = recipients.map (·.addr) := by
  rw [List.map_map]
  rfl

theorem extraOf_extraRecipients {db : Db} (already : List Text)
    {toList ccList bccList : List Recipient}
    (loaded : load msgId db = toList ++ ccList ++ bccList)
    (toKind : ∀ recipient ∈ toList, recipient.kind = .to)
    (ccKind : ∀ recipient ∈ ccList, recipient.kind = .cc)
    (bccKind : ∀ recipient ∈ bccList, recipient.kind = .bcc) :
    ExtraOf already ccList bccList db (extraRecipients msgId already db) := by
  have together : ∀ recipient ∈ ccList ++ bccList, recipient.kind ≠ .to := by
    intro recipient member
    rcases List.mem_append.mp member with inCc | inBcc
    · rw [ccKind recipient inCc]
      decide
    · rw [bccKind recipient inBcc]
      decide
  rw [extraRecipients_eq already loaded toKind ccKind bccKind]
  refine ⟨fun addr => ?_, fun addr => ?_, fun entry member => ?_⟩
  · rw [map_addr_extraEntry]
    exact mem_pickExtra_of_notTo fun recipient member =>
      together recipient (List.mem_append_left _ member)
  · rw [ExtraRecipients.all, ← List.map_append, map_addr_extraEntry]
    have joined := pickExtra_append (already.map addrNormalize) [] ccList bccList
    rw [List.append_nil] at joined
    rw [← joined]
    exact mem_pickExtra_of_notTo together
  · rw [ExtraRecipients.all, ← List.map_append] at member
    obtain ⟨recipient, _, rfl⟩ := List.mem_map.mp member
    rfl

variable {encrypted : Bool} {member : Member} {extra : ExtraRecipients} {importance : Importance}
  {addressing : Addressing} {db : Db}

theorem addressTo_fields {member : Option Member}
    (made : addressTo encrypted member extra importance = .ok addressing) :
    addressing.recipients =
        (if encrypted then
          (member.toList.flatMap Member.relays ++ extra.all.map (·.addr)).filter fun addr =>
            !(missingKeyAddresses member extra.all).contains addr
        else member.toList.flatMap Member.relays ++ extra.all.map (·.addr)) ∧
      addressing.encryption =
        (if encrypted then .asymmetric (memberKeys member ++ extraKeys extra.all) else .no) ∧
      addressing.toHeader =
        member.toList.map (fun member => (member.contact.authname, member.contact.addr)) ∧
      addressing.ccHeader = extra.cc.map (fun entry => (entry.name, entry.addr)) ∧
      addressing.importance = importance := by
  unfold addressTo at made
  cases encrypted with
  | false =>
    injection made with same
    subst same
    exact ⟨rfl, rfl, rfl, rfl, rfl⟩
  | true =>
    simp only [Bool.not_true, Bool.false_eq_true, ↓reduceIte] at made
    split at made
    · cases made
    · injection made with same
      subst same
      exact ⟨rfl, rfl, rfl, rfl, rfl⟩

theorem addressTo_eq_ok
    (made : addressTo encrypted (some member) extra importance = .ok addressing) :
    addressing.recipients =
        (if encrypted then
          (member.relays ++ extra.all.map (·.addr)).filter fun addr =>
            !(missingKeyAddresses (some member) extra.all).contains addr
        else member.relays ++ extra.all.map (·.addr)) ∧
      addressing.encryption =
        (if encrypted then .asymmetric (memberKeys (some member) ++ extraKeys extra.all)
        else .no) ∧
      addressing.toHeader = [(member.contact.authname, member.contact.addr)] ∧
      addressing.ccHeader = extra.cc.map (fun entry => (entry.name, entry.addr)) ∧
      addressing.importance = importance := by
  have fields := addressTo_fields made
  simp only [Option.toList_some, List.flatMap_cons, List.flatMap_nil, List.append_nil,
    List.map_cons, List.map_nil] at fields
  exact fields

omit [Unicode] in
theorem mem_missingKeyAddresses (keyed : member.key.isSome = true)
    (keyOf : ∀ entry ∈ extra.all, entry.key = lookupKey entry.addr db) (addr : Text) :
    addr ∈ missingKeyAddresses (some member) extra.all ↔
      addr ∈ extra.all.map (·.addr) ∧ lookupKey addr db = none := by
  have hasKey : member.key.isNone = false := by
    rw [← Option.not_isSome, keyed]
    rfl
  simp only [missingKeyAddresses, Option.toList_some, List.filter_cons, hasKey,
    Bool.false_eq_true, ↓reduceIte, List.filter_nil, List.map_nil, List.nil_append,
    List.mem_map, List.mem_filter, Option.isNone_iff_eq_none]
  constructor
  · rintro ⟨entry, ⟨isExtra, noKey⟩, rfl⟩
    exact ⟨⟨entry, isExtra, rfl⟩, (keyOf entry isExtra).symm.trans noKey⟩
  · rintro ⟨⟨entry, isExtra, rfl⟩, noKey⟩
    exact ⟨entry, ⟨isExtra, (keyOf entry isExtra).trans noKey⟩, rfl⟩

theorem mem_recipients_of_addressTo
    (made : addressTo encrypted (some member) extra importance = .ok addressing)
    (keyed : encrypted = true → member.key.isSome = true)
    (keyOf : ∀ entry ∈ extra.all, entry.key = lookupKey entry.addr db) (addr : Text) :
    addr ∈ addressing.recipients ↔
      (addr ∈ member.relays ∨ addr ∈ extra.all.map (·.addr)) ∧
        (encrypted = true → addr ∈ extra.all.map (·.addr) → lookupKey addr db ≠ none) := by
  rw [(addressTo_eq_ok made).1]
  cases encrypted with
  | false => simp
  | true =>
    simp only [↓reduceIte, List.mem_filter, List.mem_append, Bool.not_eq_true',
      ← Bool.not_eq_true, List.contains_iff_mem, mem_missingKeyAddresses (keyed rfl) keyOf, not_and,
      forall_const,
      ne_eq]

omit [Unicode] in
theorem mem_keys_of_addressTo {keys : List (Text × PublicKey)} (keyed : member.key.isSome = true)
    (keysAre : keys = memberKeys (some member) ++ extraKeys extra.all)
    (keyOf : ∀ entry ∈ extra.all, entry.key = lookupKey entry.addr db) (addr : Text) :
    addr ∈ keys.map (·.1) ↔
      addr = member.contact.addr ∨
        (addr ∈ extra.all.map (·.addr) ∧ (lookupKey addr db).isSome = true) := by
  obtain ⟨memberKey, hasKey⟩ := Option.isSome_iff_exists.mp keyed
  rw [keysAre, List.map_append, List.mem_append]
  refine or_congr ?_ ?_
  · simp [memberKeys, hasKey]
  · simp only [extraKeys, List.mem_map, List.mem_filterMap, Option.map_eq_some_iff]
    constructor
    · rintro ⟨_, ⟨entry, isExtra, found, entryKey, rfl⟩, rfl⟩
      exact ⟨⟨entry, isExtra, rfl⟩, by rw [← keyOf entry isExtra, entryKey]; rfl⟩
    · rintro ⟨⟨entry, isExtra, rfl⟩, known⟩
      obtain ⟨found, isKey⟩ := Option.isSome_iff_exists.mp known
      exact ⟨_, ⟨entry, isExtra, found, (keyOf entry isExtra).trans isKey, rfl⟩, rfl⟩

end

end Eeemail.Addressees
