import Eeemail.Lib.Forests
import Eeemail.Lib.Loops
import Eeemail.MimeFactory

/-! # Conversation threading

`core/src/email/threading.rs`, `parse_message_ids` of `core/src/mimeparser.rs`
and `flatten_thread` of `core/deltachat-jsonrpc/src/api/types/email.rs`.  A
thread is known by a set of Message-IDs; `assign` puts a message into one,
`tree` builds the replies within one, and `flattenThread` puts them in display
order. -/

set_option autoImplicit false

namespace Eeemail.Threading

open Lib.Texts Lib.Tables Lib.Loops Lib.Forests Store Housekeeping MimeFactory

abbrev ThreadId := Nat

/-! ## Tables -/

structure Thread where
  id : ThreadId
  subjectNorm : Text
  lastActivity : Int
  deriving DecidableEq, Repr

structure ThreadRef where
  rfc724Mid : Text
  threadId : ThreadId
  deriving DecidableEq, Repr

structure MsgThread where
  msgId : MsgId
  threadId : ThreadId
  deriving DecidableEq, Repr

structure ThreadTables where
  threads : List Thread := []
  threadRefs : List ThreadRef := []
  msgThreads : List MsgThread := []
  nextThreadId : ThreadId := 1
  deriving DecidableEq, Repr

def ThreadTables.refOf (tables : ThreadTables) (mid : Text) : Option ThreadId :=
  (tables.threadRefs.find? fun row => row.rfc724Mid == mid).map (·.threadId)

def ThreadTables.threadOf (tables : ThreadTables) (msgId : MsgId) : Option ThreadId :=
  (tables.msgThreads.find? fun row => row.msgId == msgId).map (·.threadId)

/-! ## Headers -/

structure ThreadHeaders where
  rfc724Mid : Text := []
  inReplyTo : Text := []
  references : Text := []
  subject : Text := []
  timestamp : Int := 0
  deriving DecidableEq, Repr

def stripStart (c : Char) : Text → Text
  | [] => []
  | d :: rest => if d = c then rest else d :: rest

def stripEnd (c : Char) (s : Text) : Text := (stripStart c s.reverse).reverse

section

variable [Unicode]

def splitWhitespace (s : Text) : List Text :=
  (s.splitOnP Unicode.isWhitespace).filter (!·.isEmpty)

def parseMessageIds (ids : Text) : List Text :=
  ((splitWhitespace ids).map fun id => stripEnd '>' (stripStart '<' id)).filter (!·.isEmpty)

def ThreadHeaders.linkedIds (headers : ThreadHeaders) : List Text :=
  ((headers.rfc724Mid :: (parseMessageIds headers.references ++
    parseMessageIds headers.inReplyTo)).filter (!·.isEmpty)).eraseDups

end

/-! ## Grouping -/

def collectThread (tables : ThreadTables) (found : List ThreadId) (id : Text) : List ThreadId :=
  match tables.refOf id with
  | some threadId => if found.contains threadId then found else found ++ [threadId]
  | none => found

def existingThreads (ids : List Text) (tables : ThreadTables) : List ThreadId :=
  (ids.foldl (collectThread tables) []).insertionSort (· ≤ ·)

def retarget (survivor loser : ThreadId) (tables : ThreadTables) : ThreadTables :=
  { tables with
    msgThreads := updateWhere (fun row => row.threadId == loser)
      (fun row => { row with threadId := survivor }) tables.msgThreads
    threadRefs := updateWhere (fun row => row.threadId == loser)
      (fun row => { row with threadId := survivor }) tables.threadRefs }

/-- A thread that takes over the subject and the activity of one merged into it. -/
def Thread.absorb (lost : Option Thread) (thread : Thread) : Thread :=
  { thread with
    subjectNorm := if thread.subjectNorm.isEmpty then (lost.map (·.subjectNorm)).getD []
      else thread.subjectNorm
    lastActivity := max thread.lastActivity ((lost.map (·.lastActivity)).getD 0) }

def Thread.touch (subjectNorm : Text) (timestamp : Int) (thread : Thread) : Thread :=
  { thread with
    subjectNorm := if thread.subjectNorm.isEmpty then subjectNorm else thread.subjectNorm
    lastActivity := max thread.lastActivity timestamp }

def mergeThread (survivor : ThreadId) (tables : ThreadTables) (loser : ThreadId) : ThreadTables :=
  let lost := tables.threads.find? fun row => row.id == loser
  { retarget survivor loser tables with
    threads := deleteWhere (fun row => row.id == loser)
      (updateWhere (fun row => row.id == survivor) (Thread.absorb lost) tables.threads) }

/-- The thread a message belongs to, once older ones are merged or a new one is made. -/
def chooseThread (existing : List ThreadId) (subjectNorm : Text) (timestamp : Int)
    (tables : ThreadTables) : ThreadId × ThreadTables :=
  match existing with
  | survivor :: losers => (survivor, losers.foldl (mergeThread survivor) tables)
  | [] =>
    (tables.nextThreadId,
      { tables with
        threads := tables.threads ++
          [{ id := tables.nextThreadId, subjectNorm, lastActivity := timestamp }]
        nextThreadId := tables.nextThreadId + 1 })

section

variable [Unicode]

def assign (msgId : MsgId) (headers : ThreadHeaders) (tables : ThreadTables) :
    ThreadId × ThreadTables :=
  let linked := headers.linkedIds
  let subjectNorm := removeSubjectPrefix headers.subject
  let (threadId, tables) :=
    chooseThread (existingThreads linked tables) subjectNorm headers.timestamp tables
  let tables :=
    { tables with
      threadRefs := linked.foldl
        (fun rows mid => upsert (·.rfc724Mid) { rfc724Mid := mid, threadId } rows)
        tables.threadRefs
      msgThreads := upsert (·.msgId) { msgId, threadId } tables.msgThreads
      threads := updateWhere (fun row => row.id == threadId)
        (Thread.touch subjectNorm headers.timestamp) tables.threads }
  (threadId, tables)

end

/-- `prune`: drops threading data of messages that are gone, then threads without
messages and what refers to those. -/
def pruneThreads (db : Db) (tables : ThreadTables) : ThreadTables :=
  let msgThreads := tables.msgThreads.filter fun row => hasLiveMsg row.msgId db
  let threads := tables.threads.filter fun thread =>
    msgThreads.any fun row => row.threadId == thread.id
  { tables with
    msgThreads
    threads
    threadRefs := tables.threadRefs.filter fun ref =>
      threads.any fun thread => thread.id == ref.threadId }

/-! ## The reply tree -/

def oldestFirst (msgs : List Message) : List Message :=
  msgs.insertionSort fun a b =>
    a.timestamp < b.timestamp ∨ (a.timestamp = b.timestamp ∧ a.id ≤ b.id)

def threadRows (threadId : ThreadId) (db : Db) (tables : ThreadTables) : List Message :=
  oldestFirst (db.msgs.filter fun msg =>
    msg.isLive && tables.msgThreads.any fun row => row.msgId == msg.id && row.threadId == threadId)

def byMid (rows : List Message) (mid : Text) : Option MsgId :=
  (rows.find? fun row => !row.rfc724Mid.isEmpty && row.rfc724Mid == mid).map (·.id)

def orderOf (rows : List Message) (msgId : MsgId) : Nat := rows.findIdx fun row => row.id == msgId

abbrev ThreadNode := Rose MsgId

/-- `build_node`'s steps: a message is entered, and left once its replies are built. -/
inductive BuildStep where
  | enter (msgId : MsgId)
  | exit (msgId : MsgId) (count : Nat)

structure Building where
  stack : List BuildStep
  done : List ThreadNode

/-- One turn of the loop of `build_node`; the top of the stack is the head of the list. -/
def buildStep (children : MsgId → List MsgId) (building : Building) : Option Building :=
  match building.stack with
  | [] => none
  | .enter msgId :: stack =>
    let kids := children msgId
    some
      { building with
        stack := kids.reverse.foldl (fun stack kid => .enter kid :: stack)
          (.exit msgId kids.length :: stack) }
  | .exit msgId count :: stack =>
    let position := building.done.length - count
    some
      { stack
        done := building.done.take position ++
          [.node msgId (building.done.drop position)] }

def buildNode (fuel : Nat) (children : MsgId → List MsgId) (root : MsgId) : Option ThreadNode :=
  (loop (buildStep children) fuel { stack := [.enter root], done := [] }).map fun building =>
    building.done.getLast?.getD (.node root [])

section

variable [Unicode]

/-- The nearest ancestor that is there: the last reference that names an older message. -/
def parentOf (rows : List Message) (row : Message) : Option MsgId :=
  let candidates := parseMessageIds row.mimeReferences ++ parseMessageIds row.mimeInReplyTo
  candidates.reverse.findSome? fun candidate =>
    match byMid rows candidate with
    | none => none
    | some candidateId =>
      if candidateId = row.id then none
      else if orderOf rows row.id ≤ orderOf rows candidateId then none
      else some candidateId

def childrenOf (rows : List Message) (msgId : MsgId) : List MsgId :=
  (rows.filter fun row => parentOf rows row == some msgId).map (·.id)

def rootsOf (rows : List Message) : List MsgId :=
  (rows.filter fun row => (parentOf rows row).isNone).map (·.id)

def tree (fuel : Nat) (threadId : ThreadId) (db : Db) (tables : ThreadTables) :
    Option (List ThreadNode) :=
  let rows := threadRows threadId db tables
  (rootsOf rows).mapM (buildNode fuel (childrenOf rows))

end

/-! ## Display order -/

structure ThreadItem where
  msgId : MsgId
  parentMsgId : Option MsgId
  depth : Nat
  deriving DecidableEq, Repr

structure Flattening where
  stack : List (ThreadNode × Option MsgId × Nat)
  out : List ThreadItem

def u32Max : Nat := 2 ^ 32 - 1

/-- One turn of the loop of `flatten_thread`; the top of the stack is the head of the list. -/
def flattenStep (flattening : Flattening) : Option Flattening :=
  match flattening.stack with
  | [] => none
  | (.node msgId children, parentMsgId, depth) :: stack =>
    some
      { out := flattening.out ++ [{ msgId, parentMsgId, depth }]
        stack := children.reverse.foldl
          (fun stack child => (child, some msgId, min (depth + 1) u32Max) :: stack) stack }

def flattenThread (fuel : Nat) (roots : List ThreadNode) : Option (List ThreadItem) :=
  (loop flattenStep fuel { stack := roots.map fun node => (node, none, 0), out := [] }).map (·.out)

end Eeemail.Threading
