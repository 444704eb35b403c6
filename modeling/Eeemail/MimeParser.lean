import Eeemail.Addressees
import Eeemail.Arrivals

/-! # The headers of a received message

`merge_headers` and the address lists of `core/src/mimeparser.rs`, and
`HeaderRecipients` of `core/src/email/recipients.rs`.  The headers of the outer
message and of the decrypted part are merged one after the other.  The
addressees are kept twice, as one list and by header.  How a header is decoded
and split into addresses is not modelled: a field carries what `mailparse` makes
of it. -/

set_option autoImplicit false

namespace Eeemail.MimeParser

open Lib.Texts Lib.Actions Lib.Tables Addr Store Trash Recipients Reception Frames Addressees
open Arrivals

/-! ## Headers and addresses -/

structure SingleInfo where
  addr : Text
  displayName : Option Text := none
  deriving DecidableEq, Repr

inductive MailAddr where
  | single (info : SingleInfo)
  | group (addrs : List SingleInfo)
  deriving DecidableEq, Repr

/-- A header field: its key, its decoded value, and its value as a list of
addresses unless it cannot be read as one. -/
structure MailHeader where
  key : Text
  value : Text := []
  addrs : Option (List MailAddr) := none
  deriving DecidableEq, Repr

/-- A MIME part, by its headers and the parameters of its content type. -/
structure ParsedMail where
  headers : List MailHeader := []
  ctypeParams : List (Text × Text) := []
  deriving DecidableEq, Repr

def MailAddr.infos : MailAddr → List SingleInfo
  | .single info => [info]
  | .group addrs => addrs

def extractSingleInfo : List MailAddr → Option SingleInfo
  | [.single info] => some info
  | _ => none

def singleValue {α : Type} : List α → Option α
  | [value] => some value
  | _ => none

def isProtected (key : Text) : Bool :=
  startsWith "chat-".toList key ||
    ["return-path", "auto-submitted", "autocrypt-setup-message", "date", "from", "sender",
      "reply-to", "to", "cc", "bcc", "message-id", "in-reply-to", "references",
      "secure-join"].any fun name => key == name.toList

section

variable [Unicode]

/-- `get_all_addresses_from_header`: the last header of the name counts. -/
def getAllAddressesFromHeader (headers : List MailHeader) (header : Text) : List SingleInfo :=
  match headers.reverse.find? fun field => lowercase field.key == header with
  | none => []
  | some field =>
    match field.addrs with
    | none => []
    | some addrs =>
      (addrs.flatMap MailAddr.infos).map fun info =>
        { info with addr := lowercase (addrNormalize info.addr) }

def getRecipients (headers : List MailHeader) : List SingleInfo :=
  getAllAddressesFromHeader headers "to".toList ++ getAllAddressesFromHeader headers "cc".toList

def getFrom (headers : List MailHeader) : Option SingleInfo :=
  singleValue (getAllAddressesFromHeader headers "from".toList)

def getListPost (headers : List MailHeader) : Option Text :=
  (getAllAddressesFromHeader headers "list-post".toList).head?.map (·.addr)

structure HeaderRecipients where
  toHeader : List SingleInfo := []
  ccHeader : List SingleInfo := []
  deriving DecidableEq, Repr

def HeaderRecipients.merge (recipients : HeaderRecipients) (fields : List MailHeader)
    (hasHeaderProtection : Bool) : HeaderRecipients :=
  let toHeader := getAllAddressesFromHeader fields "to".toList
  let ccHeader := getAllAddressesFromHeader fields "cc".toList
  if hasHeaderProtection || !toHeader.isEmpty || !ccHeader.isEmpty then { toHeader, ccHeader }
  else recipients

omit [Unicode] in
def fromSingleInfo (kind : RecipientKind) (info : SingleInfo) : Recipient :=
  { kind, addr := info.addr, name := info.displayName.getD [] }

omit [Unicode] in
def HeaderRecipients.toRecipients (recipients : HeaderRecipients) : List Recipient :=
  recipients.toHeader.map (fromSingleInfo .to) ++ recipients.ccHeader.map (fromSingleInfo .cc)

/-! ## Merging -/

/-- What `merge_headers` works on. -/
structure MergedHeaders where
  headers : List (Text × Text) := []
  headersRemoved : List Text := []
  recipients : List SingleInfo := []
  headerRecipients : HeaderRecipients := {}
  pastMembers : List SingleInfo := []
  sender : Option SingleInfo := none
  listPost : Option Text := none
  chatDispositionNotificationTo : Option SingleInfo := none
  deriving DecidableEq, Repr

def mergeField (merged : MergedHeaders) (field : MailHeader) : MergedHeaders :=
  if lowercase field.key = "chat-disposition-notification-to".toList then
    match field.addrs with
    | some addrs => { merged with chatDispositionNotificationTo := extractSingleInfo addrs }
    | none => merged
  else { merged with headers := upsert (·.1) (lowercase field.key, field.value) merged.headers }

def mergeHeaders (merged : MergedHeaders) (part : ParsedMail) : MergedHeaders :=
  let fields := part.headers
  let hasHeaderProtection := part.ctypeParams.any fun param => param.1 == "hp".toList
  let replaced (entry : Text × Text) : Bool := hasHeaderProtection || isProtected entry.1
  let merged :=
    { merged with
      headersRemoved := merged.headersRemoved ++ (merged.headers.filter replaced).map (·.1)
      headers := deleteWhere replaced merged.headers
      chatDispositionNotificationTo :=
        if hasHeaderProtection then none else merged.chatDispositionNotificationTo }
  let merged := fields.foldl mergeField merged
  let recipientsNew := getRecipients fields
  let pastMembers := getAllAddressesFromHeader fields "chat-group-past-members".toList
  let fromNew := getFrom fields
  let listPostNew := getListPost fields
  { merged with
    recipients := if hasHeaderProtection || !recipientsNew.isEmpty then recipientsNew
      else merged.recipients
    headerRecipients := merged.headerRecipients.merge fields hasHeaderProtection
    pastMembers := if hasHeaderProtection || !pastMembers.isEmpty then pastMembers
      else merged.pastMembers
    sender := if hasHeaderProtection || fromNew.isSome then fromNew else merged.sender
    listPost := if hasHeaderProtection || listPostNew.isSome then listPostNew
      else merged.listPost }

/-- A part as `from_bytes` merges it: its sender is read afresh, and the earlier one stays if it
names none. -/
def mergePart (merged : MergedHeaders) (part : ParsedMail) : MergedHeaders :=
  let inner := mergeHeaders { merged with sender := none } part
  { inner with sender := inner.sender.or merged.sender }

def mergeAll (parts : List ParsedMail) : MergedHeaders := parts.foldl mergePart {}

/-! ## One list, kept twice -/

theorem mergeField_recipients (merged : MergedHeaders) (field : MailHeader) :
    (mergeField merged field).recipients = merged.recipients ∧
      (mergeField merged field).headerRecipients = merged.headerRecipients := by
  unfold mergeField
  split
  · split <;> exact ⟨rfl, rfl⟩
  · exact ⟨rfl, rfl⟩

theorem foldl_mergeField_recipients (fields : List MailHeader) (merged : MergedHeaders) :
    (fields.foldl mergeField merged).recipients = merged.recipients ∧
      (fields.foldl mergeField merged).headerRecipients = merged.headerRecipients := by
  induction fields generalizing merged with
  | nil => exact ⟨rfl, rfl⟩
  | cons field rest ih =>
    obtain ⟨sameList, sameHeaders⟩ := mergeField_recipients merged field
    obtain ⟨restList, restHeaders⟩ := ih (mergeField merged field)
    exact ⟨restList.trans sameList, restHeaders.trans sameHeaders⟩

def InStep (merged : MergedHeaders) : Prop :=
  merged.headerRecipients.toHeader ++ merged.headerRecipients.ccHeader = merged.recipients

theorem inStep_mergeHeaders (merged : MergedHeaders) (part : ParsedMail) (inStep : InStep merged) :
    InStep (mergeHeaders merged part) := by
  unfold InStep mergeHeaders
  simp only [foldl_mergeField_recipients, HeaderRecipients.merge]
  -- Both rules ask whether either header says something.
  have empty : (getRecipients part.headers).isEmpty =
      ((getAllAddressesFromHeader part.headers "to".toList).isEmpty &&
        (getAllAddressesFromHeader part.headers "cc".toList).isEmpty) := by
    rw [getRecipients, Bool.eq_iff_iff]
    simp
  rw [empty, Bool.not_and, ← Bool.or_assoc]
  split
  · rfl
  · exact inStep

theorem inStep_mergeAll (parts : List ParsedMail) : InStep (mergeAll parts) := by
  have kept : ∀ (parts : List ParsedMail) (merged : MergedHeaders), InStep merged →
      InStep (parts.foldl mergePart merged) := by
    intro parts
    induction parts with
    | nil => exact fun _ inStep => inStep
    | cons part rest ih =>
      exact fun merged inStep =>
        ih _ (inStep_mergeHeaders { merged with sender := none } part inStep)
  exact kept parts {} rfl

/-! ## Header protection -/

end

/-- The entries of one header as they are stored: in order, each address where it was
first mentioned, with the name it had there. -/
structure FirstMentions (kind : RecipientKind) (header : List SingleInfo)
    (stored : List Recipient) : Prop where
  order : stored.map (·.addr) = (header.map (·.addr)).eraseDups
  first : ∀ recipient ∈ stored, recipient.kind = kind ∧
    (header.find? fun info => info.addr == recipient.addr).map (·.displayName.getD []) =
      some recipient.name

theorem firstMentions_firstPerAddr (kind : RecipientKind) (header : List SingleInfo) :
    FirstMentions kind header (firstPerAddr (header.map (fromSingleInfo kind))) := by
  constructor
  · have order : (firstPerAddr (header.map (fromSingleInfo kind))).map (·.addr) =
        [] ++ (((header.map (fromSingleInfo kind)).map (·.addr)).filter fun _ => true).eraseDups :=
      map_foldl_insertOrIgnore _
    rw [List.nil_append, List.filter_true, List.map_map] at order
    exact order
  · intro recipient member
    rcases first_of_mem_foldl_insertOrIgnore member with none | ⟨_, found⟩
    · cases none
    · rw [List.find?_map] at found
      obtain ⟨info, isInfo, rfl⟩ := Option.map_eq_some_iff.mp found
      refine ⟨rfl, ?_⟩
      have isFirst : header.find? (fun other => other.addr == info.addr) = some info := isInfo
      rw [fromSingleInfo, isFirst]
      rfl

theorem firstMentions_store (recipients : HeaderRecipients) (msgId : MsgId) (db : Db) :
    ∃ storedTo storedCc, load msgId (Recipients.store msgId recipients.toRecipients db) =
        storedTo ++ storedCc ∧
      FirstMentions .to recipients.toHeader storedTo ∧
      FirstMentions .cc recipients.ccHeader storedCc := by
  have kinds : ∀ (kind : RecipientKind) (header : List SingleInfo),
      ∀ recipient ∈ header.map (fromSingleInfo kind), recipient.kind = kind := by
    intro kind header recipient member
    obtain ⟨_, _, rfl⟩ := List.mem_map.mp member
    rfl
  refine ⟨_, _, ?_, firstMentions_firstPerAddr .to recipients.toHeader,
    firstMentions_firstPerAddr .cc recipients.ccHeader⟩
  simp only [load, loadKind_store, HeaderRecipients.toRecipients, List.filter_append]
  rw [filter_kind_same (kinds .to _), filter_kind_same (kinds .cc _),
    filter_kind_other (kinds .to _) (by decide : RecipientKind.to ≠ .cc),
    filter_kind_other (kinds .to _) (by decide : RecipientKind.to ≠ .bcc),
    filter_kind_other (kinds .cc _) (by decide : RecipientKind.cc ≠ .to),
    filter_kind_other (kinds .cc _) (by decide : RecipientKind.cc ≠ .bcc),
    List.append_nil, List.nil_append]
  exact List.append_nil _

section

variable [Unicode]

/-! ## Reception -/

theorem msgRecipients_hooks (mail : Incoming) (msgId : MsgId) (now : Int) (db : Db) :
    (stateAfter (hooks mail msgId now) db).msgRecipients =
      (Recipients.store msgId mail.headerRecipients db).msgRecipients :=
  (ContactTable.keeps_fileStored mail msgId now).coarser (·.msgRecipients)
    (Recipients.store msgId mail.headerRecipients db)

theorem load_of_receive {mail : Incoming} {now : Int} {db db' : Db} {msgId : MsgId}
    (success : (receive mail now).run db = .ok (some msgId) db') :
    load msgId db' =
      load msgId (Recipients.store msgId mail.headerRecipients (storedBy mail now db)) := by
  obtain ⟨_, _, isAfter⟩ := receive_eq_ok success
  have adopted := (keeps_adopt mail).coarser (·.msgRecipients)
    (storeStructured msgId mail.structured
      (stateAfter (hooks mail msgId now) (storedBy mail now db)))
  rw [← isAfter] at adopted
  have same : db'.msgRecipients =
      (Recipients.store msgId mail.headerRecipients (storedBy mail now db)).msgRecipients :=
    adopted.trans (msgRecipients_hooks mail msgId now (storedBy mail now db))
  rw [load, load, loadKind_congr same, loadKind_congr same, loadKind_congr same]

def withHeaders (mail : Incoming) (parts : List ParsedMail) : Incoming :=
  { mail with headerRecipients := (mergeAll parts).headerRecipients.toRecipients }

/-- Whatever headers are merged, the addressees by header are those the message is
handled with, and once it is received they are read back, To then Cc, each in the
order of its header with an address where it was first mentioned. -/
theorem recorded_recipients_are_handled (parts : List ParsedMail) {mail : Incoming} {now : Int}
    {db db' : Db} {msgId : MsgId}
    (success : (receive (withHeaders mail parts) now).run db = .ok (some msgId) db') :
    (mergeAll parts).headerRecipients.toHeader ++ (mergeAll parts).headerRecipients.ccHeader =
        (mergeAll parts).recipients ∧
      ∃ storedTo storedCc, load msgId db' = storedTo ++ storedCc ∧
        FirstMentions .to (mergeAll parts).headerRecipients.toHeader storedTo ∧
        FirstMentions .cc (mergeAll parts).headerRecipients.ccHeader storedCc := by
  refine ⟨inStep_mergeAll parts, ?_⟩
  rw [load_of_receive success]
  exact firstMentions_store (mergeAll parts).headerRecipients msgId _

end

section

local instance : Unicode := asciiTables

def twoParts : List ParsedMail :=
  [{ headers :=
      [{ key := "To".toList, addrs := some [.single { addr := "old@x.org".toList }] },
       { key := "Cc".toList, addrs := some [.single { addr := "c@x.org".toList }] }] },
   { headers :=
      [{ key := "To".toList
         addrs := some
          [.group [{ addr := "A@x.org".toList, displayName := some "A".toList }],
           .single { addr := "b@x.org".toList }, .single { addr := "a@x.org".toList }] }]
     ctypeParams := [("hp".toList, "cipher".toList)] }]

def fromStranger : Incoming := { rfc724Mid := "m".toList, fromAddr := "s@x.org".toList }

theorem recorded_recipients_of_two_parts : (mergeAll twoParts).recipients.map (·.addr) =
        ["a@x.org".toList, "b@x.org".toList, "a@x.org".toList] ∧
      ∃ storedTo storedCc, load 10 (stateAfter (receive (withHeaders fromStranger twoParts) 5)
          { labels := ReservedLabels.migratedLabels }) = storedTo ++ storedCc ∧
        FirstMentions .to (mergeAll twoParts).headerRecipients.toHeader storedTo ∧
        FirstMentions .cc (mergeAll twoParts).headerRecipients.ccHeader storedCc := by
  have received : returns (receive (withHeaders fromStranger twoParts) 5)
      { labels := ReservedLabels.migratedLabels } (some 10) = true := by decide +kernel
  exact ⟨by decide +kernel, (recorded_recipients_are_handled twoParts (run_of_returns received)).2⟩

end

end Eeemail.MimeParser
