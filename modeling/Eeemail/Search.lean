import Eeemail.SystemTags
import Eeemail.Lib.Like

/-! # Search

`core/src/email/search.rs`: messages by a text in body, subject or recipients,
within a label, a system tag or a chat.  The text is looked for with `LIKE`, so
a search finds exactly what it is asked for only if the text has no wildcard in
it and is not too long; and then in the mailboxes where it makes no difference that
`LOWER` knows the ASCII letters only. -/

set_option autoImplicit false

namespace Eeemail.Search

open Lib.Texts Lib.Tables Lib.Like Store Labels ReservedLabels SystemTags

/-! ## The query -/

structure SearchQuery where
  text : Text := []
  label : Option LabelId := none
  tag : Option SystemTag := none
  chatId : Option ChatId := none

def limit : Nat := 1000

section

variable [Unicode]

def SearchQuery.needle (search : SearchQuery) : Text := lowercase (trim search.text)

def SearchQuery.isEmpty (search : SearchQuery) : Bool :=
  (trim search.text).isEmpty && search.label.isNone && search.tag.isNone && search.chatId.isNone

/-- `normalize_text`: what is stored beside a text whose case SQLite cannot fold. -/
def normalizeText (text : Text) : Option Text :=
  if text.all (fun c => decide (c.toNat < 128)) then none
  else if lowercase text = text then none
  else some (lowercase text)

/-! ## The clauses of the statement -/

/-- Not one of the special chats, and not hidden unless drafts are looked for. -/
def isVisible (search : SearchQuery) (msg : Message) : Bool :=
  decide (chatIdLastSpecial < msg.chatId) && (search.tag == some .drafts || !msg.hidden)

def isUnblocked (msg : Message) (db : Db) : Bool :=
  ((db.chatById msg.chatId).map (·.blocked)).getD .not != .yes &&
    !((db.contactById msg.fromId).map (·.blocked)).getD false

def textClause (needle : Text) (msg : Message) (db : Db) : Bool :=
  needle.isEmpty ||
    (like (surrounded needle) ((normalizeText msg.text).getD msg.text) ||
      like (surrounded needle) (asciiLower msg.subject) ||
      db.msgRecipients.any fun row =>
        row.msgId == msg.id &&
          (like (surrounded needle) row.addr || like (surrounded needle) (asciiLower row.name)))

def labelClause (label : LabelId) (msg : Message) (db : Db) : Bool :=
  db.msgLabels.any fun row => row.msgId == msg.id && row.labelId == label

def stateRange : SystemTag → MessageState × MessageState
  | .drafts => (.outDraft, .outDraft)
  | .sent => (.outPending, .outMdnRcvd)
  | .inbox => (.inFresh, .inSeen)
  -- Not reached: these are stored.
  | .archive | .trash | .unverified => (.undefined, .undefined)

def inRange (tag : SystemTag) (msg : Message) : Bool :=
  decide (stateNumber (stateRange tag).1 ≤ stateNumber msg.state) &&
    decide (stateNumber msg.state ≤ stateNumber (stateRange tag).2)

def tagClause (tag : SystemTag) (msg : Message) (db : Db) : Bool :=
  match tag.storedName with
  | some name =>
    db.msgLabels.any fun row =>
      row.msgId == msg.id &&
        db.labels.any fun label => label.id == row.labelId && label.nameNorm == lowercase name
  | none => inRange tag msg && (tag != .inbox || !filed msg.id db)

def selected (search : SearchQuery) (db : Db) (msg : Message) : Bool :=
  isVisible search msg && isUnblocked msg db && textClause search.needle msg db &&
    search.label.all (fun label => labelClause label msg db) &&
    search.tag.all (fun tag => tagClause tag msg db) &&
    search.chatId.all (fun chatId => msg.chatId == chatId)

/-- Whether SQLite looks at the text of a row: what the statement says of the columns of
the row itself is tested first. -/
def isCompared (search : SearchQuery) (msg : Message) : Bool :=
  isVisible search msg &&
    search.tag.all (fun tag => tag.storedName.isSome || inRange tag msg) &&
    search.chatId.all (fun chatId => msg.chatId == chatId)

/-- `LIKE` fails once it has something to compare. -/
def isRefused (search : SearchQuery) (db : Db) : Bool :=
  !search.needle.isEmpty && isTooComplex (surrounded search.needle) &&
    db.msgs.any (isCompared search)

/-- Nothing, if the statement fails. -/
def search (query : SearchQuery) (db : Db) : Option (List MsgId) :=
  if query.isEmpty then some []
  else if isRefused query db then none
  else
    some ((((db.msgs.filter (selected query db)).insertionSort fun a b => b.id ≤ a.id).map
      (·.id)).take limit)

/-! ## What a search is for -/

/-- Some text of the message has the needle as a part, up to the case of letters. -/
def Mentions (needle : Text) (msg : Message) (db : Db) : Prop :=
  needle <:+: lowercase msg.text ∨ needle <:+: lowercase msg.subject ∨
    ∃ row ∈ db.msgRecipients, row.msgId = msg.id ∧
      (needle <:+: lowercase row.addr ∨ needle <:+: lowercase row.name)

/-- A message that is shown and meets the restrictions of a query. -/
structure Eligible (query : SearchQuery) (msg : Message) (db : Db) : Prop where
  ordinary : chatIdLastSpecial < msg.chatId
  shown : msg.hidden = false ∨ query.tag = some .drafts
  chat : ∀ chat, db.chatById msg.chatId = some chat → chat.blocked ≠ .yes
  sender : ∀ contact, db.contactById msg.fromId = some contact → contact.blocked = false
  label : ∀ label, query.label = some label → { msgId := msg.id, labelId := label } ∈ db.msgLabels
  tag : ∀ tag, query.tag = some tag → tag ∈ (ofMsg msg.id db).system
  inChat : ∀ chatId, query.chatId = some chatId → msg.chatId = chatId

def Wanted (query : SearchQuery) (db : Db) (msg : Message) : Prop :=
  Eligible query msg db ∧ Mentions query.needle msg db

/-- A mailbox as the migrations and the engine leave it. -/
structure Mailbox (ids : Text → LabelId) (db : Db) : Prop where
  labels : LabelsOk ids db
  unique : (db.msgs.map (·.id)).Nodup

end

section

variable [AsciiUnicode] {ids : Text → LabelId} {db : Db} {msg : Message} {query : SearchQuery}

/-! ## Restrictions -/

variable {needle : Text}

end

section Examples

local instance : AsciiUnicode := plainTables

end Examples

end Eeemail.Search
