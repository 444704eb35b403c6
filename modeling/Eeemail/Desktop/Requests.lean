import Eeemail.Lib.Queues
import Eeemail.Lib.Runs

/-! # Requests in flight

`desktop/src/nav.ts`, `accounts.ts`, `views/list.ts` and `views/tags.ts`: the open
view's messages, the labels and the count of unverified mail are asked of the
engine and stored as the answers come.  `rpc_send` of `src-tauri/src/main.rs` runs
each request in a task of its own, so the answers come in any order, and each is
stored whatever is open by then. -/

set_option autoImplicit false

namespace Eeemail.Desktop.Requests

open Lib.Runs Lib.Queues

/-! ## The client -/

inductive View where
  | tag (tag : String)
  | label (labelId : Nat)
  | search (query : String)
  deriving DecidableEq, Repr

def View.inbox : View := .tag "inbox"

structure ListRequest where
  number : Nat
  accountId : Nat
  view : View
  deriving DecidableEq, Repr

structure AccountRequest where
  number : Nat
  accountId : Nat
  deriving DecidableEq, Repr

/-- A request of the engine, with what its caller needs to go on from it. -/
inductive Request where
  | list (request : ListRequest)
  | count (request : AccountRequest)
  /-- `get_labels`, as the last part of `openAccount` or by itself. -/
  | labels (request : AccountRequest) (opening : Bool)
  | selectAccount (accountId : Nat)
  | applyDefaults (accountId : Nat)
  | startIo (accountId : Nat)
  | deleteLabel (labelId : Nat)
  deriving DecidableEq, Repr

inductive Kind where
  | list
  | count
  | labels
  | selectAccount
  | applyDefaults
  | startIo
  | deleteLabel
  deriving DecidableEq, Repr

def Request.kind : Request → Kind
  | .list _ => .list
  | .count _ => .count
  | .labels _ _ => .labels
  | .selectAccount _ => .selectAccount
  | .applyDefaults _ => .applyDefaults
  | .startIo _ => .startIo
  | .deleteLabel _ => .deleteLabel

/-- `state`, where an answer is told apart by the request that it answers. -/
structure Client where
  accountId : Nat
  view : View
  /-- `none` where the list was emptied and not asked for. -/
  messageIds : Option ListRequest
  /-- `none` where the count was set to zero and not asked for. -/
  unverifiedCount : Option AccountRequest
  labels : Option AccountRequest
  /-- The requests of each kind that were issued last. -/
  lastList : ListRequest
  lastCount : AccountRequest
  lastLabels : AccountRequest
  issued : Nat
  pending : List Request
  deriving DecidableEq, Repr

def refreshList (client : Client) : Client :=
  { client with
    lastList := ⟨client.issued, client.accountId, client.view⟩
    issued := client.issued + 1
    pending := client.pending ++ [.list ⟨client.issued, client.accountId, client.view⟩] }

def refreshUnverifiedCount (client : Client) : Client :=
  { client with
    lastCount := ⟨client.issued, client.accountId⟩
    issued := client.issued + 1
    pending := client.pending ++ [.count ⟨client.issued, client.accountId⟩] }

def reload (client : Client) : Client := refreshUnverifiedCount (refreshList client)

def getLabels (accountId : Nat) (opening : Bool) (client : Client) : Client :=
  { client with
    lastLabels := ⟨client.issued, accountId⟩
    issued := client.issued + 1
    pending := client.pending ++ [.labels ⟨client.issued, accountId⟩ opening] }

def refreshLabels (client : Client) : Client := getLabels client.accountId false client

def openAccount (accountId : Nat) (client : Client) : Client :=
  { client with pending := client.pending ++ [.selectAccount accountId] }

def switchAccount (accountId : Nat) (client : Client) : Client :=
  if accountId = client.accountId then client else openAccount accountId client

/-- `openAccount` after the engine selected the account. -/
def showAccount (accountId : Nat) (client : Client) : Client :=
  { client with
    accountId
    view := .inbox
    unverifiedCount := none
    messageIds := none
    pending := client.pending ++ [.applyDefaults accountId] }

/-- A view that shows the deleted label is left, and nothing else is asked for it. -/
def leaveLabel (labelId : Nat) (client : Client) : Client :=
  if client.view = .label labelId then { client with view := .inbox } else client

def receive (client : Client) : Request → Client
  | .list request => { client with messageIds := some request }
  | .count request => { client with unverifiedCount := some request }
  | .labels request false => { client with labels := some request }
  | .labels request true => reload { client with labels := some request }
  | .selectAccount accountId => showAccount accountId client
  | .applyDefaults accountId => { client with pending := client.pending ++ [.startIo accountId] }
  | .startIo accountId => getLabels accountId true client
  | .deleteLabel labelId => refreshLabels (leaveLabel labelId client)

/-- What is done with an error: only `refreshUnverifiedCount` catches it. -/
def refuse (client : Client) : Request → Client
  | .count _ => { client with unverifiedCount := none }
  | _ => client

def withoutRequest (index : Nat) (client : Client) : Client :=
  { client with pending := client.pending.eraseIdx index }

inductive Event where
  /-- The sidebar, the address bar, the search field or a message that was sent. -/
  | setView (view : View)
  | mailChanged
  | switchAccount (accountId : Nat)
  /-- The setup form opens the account it made. -/
  | openAccount (accountId : Nat)
  | drawTags
  | deleteLabel (labelId : Nat)
  /-- The engine answers the pending request at this place. -/
  | answered (index : Nat)
  | failed (index : Nat)
  deriving DecidableEq, Repr

def step (client : Client) : Event → Client
  | .setView view => reload { client with view }
  | .mailChanged => reload client
  | .switchAccount accountId => switchAccount accountId client
  | .openAccount accountId => openAccount accountId client
  | .drawTags => refreshLabels client
  | .deleteLabel labelId => { client with pending := client.pending ++ [.deleteLabel labelId] }
  | .answered index =>
    match client.pending[index]? with
    | none => client
    | some request => receive (withoutRequest index client) request
  | .failed index =>
    match client.pending[index]? with
    | none => client
    | some request => refuse (withoutRequest index client) request

/-- The client once `boot` has the labels of the account and asks for the first list. -/
def booted (accountId : Nat) (view : View) : Client :=
  reload
    { accountId, view
      messageIds := none
      unverifiedCount := none
      labels := some ⟨0, accountId⟩
      lastList := ⟨0, accountId, view⟩
      lastCount := ⟨0, accountId⟩
      lastLabels := ⟨0, accountId⟩
      issued := 1
      pending := [] }

/-- What is stored answers the last question of each kind, and that was about what is
open now. -/
structure Current (client : Client) : Prop where
  list : client.messageIds = some client.lastList
  list_account : client.lastList.accountId = client.accountId
  list_view : client.lastList.view = client.view
  labels : client.labels = some client.lastLabels
  labels_account : client.lastLabels.accountId = client.accountId
  count : client.unverifiedCount = some client.lastCount
  count_account : client.lastCount.accountId = client.accountId

def NothingStale (client : Client) : Prop := client.pending = [] → Current client

/-! ## Answers that come in order -/

def oldest (client : Client) (index : Nat) (kind : Kind) : Bool :=
  (client.pending.take index).all fun other => other.kind != kind

def superseded (client : Client) (index : Nat) (kind : Kind) : Bool :=
  (client.pending.drop (index + 1)).any fun other => other.kind == kind

/-- Requests of one kind are answered in the order in which they were issued; one that
fails is followed by another of its kind; the parts of `openAccount` do not fail
once the account was selected; and the label of the open view is not deleted. -/
def orderly (client : Client) : Event → Bool
  | .answered index =>
    match client.pending[index]? with
    | none => true
    | some (.selectAccount _) => true
    | some (.deleteLabel labelId) => client.view != .label labelId
    | some request => oldest client index request.kind
  | .failed index =>
    match client.pending[index]? with
    | none => true
    | some (.selectAccount _) => true
    | some (.deleteLabel _) => true
    | some (.list _) => oldest client index .list && superseded client index .list
    | some (.count _) => oldest client index .count && superseded client index .count
    | some (.labels _ false) => oldest client index .labels && superseded client index .labels
    | some _ => false
  | _ => true

theorem oldest_iff (client : Client) (index : Nat) (kind : Kind) :
    oldest client index kind = true ↔ ∀ other ∈ client.pending.take index, other.kind ≠ kind := by
  simp [oldest]

theorem superseded_iff (client : Client) (index : Nat) (kind : Kind) :
    superseded client index kind = true ↔
      ∃ other ∈ client.pending.drop (index + 1), other.kind = kind := by
  simp [superseded]

/-! ## The queues -/

def Request.asList : Request → Option ListRequest
  | .list request => some request
  | _ => none

def Request.asCount : Request → Option AccountRequest
  | .count request => some request
  | _ => none

def Request.asLabels : Request → Option AccountRequest
  | .labels request _ => some request
  | _ => none

def Request.asDefaults : Request → Option Nat
  | .applyDefaults accountId => some accountId
  | _ => none

def Request.asStartIo : Request → Option Nat
  | .startIo accountId => some accountId
  | _ => none

/-- The account whose opening the request is a part of, once it is the open one. -/
def Request.asOpening : Request → Option Nat
  | .applyDefaults accountId => some accountId
  | .startIo accountId => some accountId
  | .labels request true => some request.accountId
  | _ => none

def lists (client : Client) : List ListRequest := client.pending.filterMap Request.asList

def counts (client : Client) : List AccountRequest := client.pending.filterMap Request.asCount

def labelRequests (client : Client) : List AccountRequest :=
  client.pending.filterMap Request.asLabels

/-- The accounts whose labels will still be asked for, in the order of the questions:
each is started before its labels are asked for, and given its defaults before it
is started. -/
def awaited (client : Client) : List Nat :=
  client.pending.filterMap Request.asStartIo ++ client.pending.filterMap Request.asDefaults

def Opening (client : Client) : Prop := client.pending.filterMap Request.asOpening ≠ []

/-- The labels will be those of the account that will be open. -/
structure Accounted (client : Client) : Prop where
  labels : Lands client.labels (labelRequests client) client.lastLabels
  account : Lands (some client.lastLabels.accountId) (awaited client) client.accountId

structure Listed (client : Client) : Prop where
  lands : Lands client.messageIds (lists client) client.lastList
  account : client.lastList.accountId = client.accountId
  view : client.lastList.view = client.view

structure Counted (client : Client) : Prop where
  lands : Lands client.unverifiedCount (counts client) client.lastCount
  account : client.lastCount.accountId = client.accountId

/-- What the client waits for ends with answers about what is open. -/
structure Coherent (client : Client) : Prop where
  accounted : Accounted client
  list : Opening client ∨ Listed client
  count : Opening client ∨ Counted client

variable {client : Client}

theorem nothingStale_of_coherent (coherent : Coherent client) : NothingStale client := by
  intro idle
  have closed : ¬Opening client := by simp [Opening, idle]
  have listed := coherent.list.resolve_left closed
  have counted := coherent.count.resolve_left closed
  have list := listed.lands
  have count := counted.lands
  have labels := coherent.accounted.labels
  have account := coherent.accounted.account
  simp only [lists, counts, labelRequests, awaited, idle, List.filterMap_nil, List.append_nil,
    lands_nil] at list count labels account
  exact ⟨list, listed.account, listed.view, labels, Option.some.inj account, count,
    counted.account⟩

/-! ## Questions -/

theorem coherent_reload (accounted : Accounted client) : Coherent (reload client) := by
  refine ⟨⟨?_, ?_⟩, Or.inr ⟨?_, rfl, rfl⟩, Or.inr ⟨?_, rfl⟩⟩
  · simpa [reload, refreshList, refreshUnverifiedCount, labelRequests, Request.asLabels,
      List.filterMap_cons] using accounted.labels
  · simpa [reload, refreshList, refreshUnverifiedCount, awaited, Request.asStartIo,
      Request.asDefaults, List.filterMap_cons] using accounted.account
  · simpa [reload, refreshList, refreshUnverifiedCount, lists, Request.asList,
      List.filterMap_cons] using lands_snoc _ _ _
  · simpa [reload, refreshList, refreshUnverifiedCount, counts, Request.asCount,
      List.filterMap_cons] using lands_snoc _ _ _

theorem coherent_booted (accountId : Nat) (view : View) : Coherent (booted accountId view) :=
  coherent_reload ⟨by simp [labelRequests], by simp [awaited]⟩

theorem accounted_getLabels (accountId : Nat) (opening : Bool)
    (lands : Lands (some accountId) (awaited client) client.accountId) :
    Accounted (getLabels accountId opening client) := by
  constructor
  · simpa [getLabels, labelRequests, Request.asLabels, List.filterMap_cons]
      using lands_snoc _ _ _
  · simpa [getLabels, awaited, Request.asStartIo, Request.asDefaults, List.filterMap_cons]
      using lands

theorem opening_of_append (opened : Opening client) {next : Client}
    {more : List Request} (added : next.pending = client.pending ++ more) : Opening next := by
  rw [Opening, added, List.filterMap_append]
  exact List.append_ne_nil_of_left_ne_nil opened _

theorem coherent_refreshLabels (coherent : Coherent client) : Coherent (refreshLabels client) := by
  have opens : Opening client → Opening (refreshLabels client) :=
    fun opened => opening_of_append opened rfl
  refine ⟨accounted_getLabels client.accountId false coherent.accounted.account.refresh,
    coherent.list.imp opens ?_, coherent.count.imp opens ?_⟩
  · intro listed
    refine ⟨?_, listed.account, listed.view⟩
    simpa [refreshLabels, getLabels, lists, Request.asList, List.filterMap_cons]
      using listed.lands
  · intro counted
    refine ⟨?_, counted.account⟩
    simpa [refreshLabels, getLabels, counts, Request.asCount, List.filterMap_cons]
      using counted.lands

structure Apart (request : Request) : Prop where
  list : request.asList = none
  count : request.asCount = none
  labels : request.asLabels = none
  startIo : request.asStartIo = none
  defaults : request.asDefaults = none
  opening : request.asOpening = none

theorem apart_selectAccount (accountId : Nat) : Apart (.selectAccount accountId) :=
  ⟨rfl, rfl, rfl, rfl, rfl, rfl⟩

theorem apart_deleteLabel (labelId : Nat) : Apart (.deleteLabel labelId) :=
  ⟨rfl, rfl, rfl, rfl, rfl, rfl⟩

theorem coherent_issue {request : Request} (coherent : Coherent client) (apart : Apart request) :
    Coherent { client with pending := client.pending ++ [request] } := by
  have opens : Opening client → Opening { client with pending := client.pending ++ [request] } :=
    fun opened => opening_of_append opened rfl
  refine ⟨⟨?_, ?_⟩, coherent.list.imp opens ?_, coherent.count.imp opens ?_⟩
  · simpa [labelRequests, List.filterMap_cons, apart.labels] using coherent.accounted.labels
  · simpa [awaited, List.filterMap_cons, apart.startIo, apart.defaults]
      using coherent.accounted.account
  · intro listed
    refine ⟨?_, listed.account, listed.view⟩
    simpa [lists, List.filterMap_cons, apart.list] using listed.lands
  · intro counted
    refine ⟨?_, counted.account⟩
    simpa [counts, List.filterMap_cons, apart.count] using counted.lands

/-! ## Answers -/

def Selects {β : Type} (f : Request → Option β) (kind : Kind) : Prop :=
  ∀ request : Request, f request = none ↔ request.kind ≠ kind

theorem selects_list : Selects Request.asList .list := by
  intro request
  cases request <;> simp [Request.asList, Request.kind]

theorem selects_count : Selects Request.asCount .count := by
  intro request
  cases request <;> simp [Request.asCount, Request.kind]

theorem selects_labels : Selects Request.asLabels .labels := by
  intro request
  cases request <;> simp [Request.asLabels, Request.kind]

theorem selects_startIo : Selects Request.asStartIo .startIo := by
  intro request
  cases request <;> simp [Request.asStartIo, Request.kind]

theorem selects_defaults : Selects Request.asDefaults .applyDefaults := by
  intro request
  cases request <;> simp [Request.asDefaults, Request.kind]

section Answers

variable {client : Client} {index : Nat} {request : Request} {β : Type} {f : Request → Option β}
  {kind : Kind} {stored other : Option β} {value last : β}

theorem Selects.eq_cons (selects : Selects f kind) (found : client.pending[index]? = some request)
    (this : f request = some value) (first : oldest client index kind = true) :
    client.pending.filterMap f = value :: (client.pending.eraseIdx index).filterMap f := by
  refine filterMap_eq_cons found this ?_
  intro older before
  exact (selects older).mpr ((oldest_iff client index kind).mp first older before)

theorem Selects.take (selects : Selects f kind) (found : client.pending[index]? = some request)
    (this : f request = some value) (first : oldest client index kind = true)
    (lands : Lands stored (client.pending.filterMap f) last) :
    Lands (some value) ((client.pending.eraseIdx index).filterMap f) last := by
  rw [selects.eq_cons found this first] at lands
  exact lands.take

theorem Selects.skip (selects : Selects f kind) (found : client.pending[index]? = some request)
    (this : f request = some value)
    (inOrder : (oldest client index kind && superseded client index kind) = true)
    (lands : Lands stored (client.pending.filterMap f) last) :
    Lands other ((client.pending.eraseIdx index).filterMap f) last := by
  obtain ⟨first, more⟩ := Bool.and_eq_true_iff.mp inOrder
  obtain ⟨younger, waits, same⟩ := (superseded_iff client index kind).mp more
  have waiting : (client.pending.eraseIdx index).filterMap f ≠ [] :=
    filterMap_eraseIdx_ne_nil waits fun picked => (selects younger).mp picked same
  rw [selects.eq_cons found this first] at lands
  exact lands.skip waiting other

theorem opening_withoutRequest (found : client.pending[index]? = some request)
    (other : request.asOpening = none) (opened : Opening client) :
    Opening (withoutRequest index client) := by
  have same := filterMap_eraseIdx_of_none found other
  simpa only [Opening, withoutRequest, same] using opened

theorem accounted_withoutRequest (accounted : Accounted client)
    (found : client.pending[index]? = some request) (named : request.asLabels = none)
    (started : request.asStartIo = none) (prepared : request.asDefaults = none) :
    Accounted (withoutRequest index client) := by
  have names := filterMap_eraseIdx_of_none found named
  have starts := filterMap_eraseIdx_of_none found started
  have prepares := filterMap_eraseIdx_of_none found prepared
  constructor
  · simpa only [labelRequests, withoutRequest, names] using accounted.labels
  · simpa only [awaited, withoutRequest, starts, prepares] using accounted.account

theorem listed_withoutRequest (listed : Listed client)
    (found : client.pending[index]? = some request) (other : request.asList = none) :
    Listed (withoutRequest index client) := by
  have same := filterMap_eraseIdx_of_none found other
  exact ⟨by simpa only [lists, withoutRequest, same] using listed.lands, listed.account,
    listed.view⟩

theorem counted_withoutRequest (counted : Counted client)
    (found : client.pending[index]? = some request) (other : request.asCount = none) :
    Counted (withoutRequest index client) := by
  have same := filterMap_eraseIdx_of_none found other
  exact ⟨by simpa only [counts, withoutRequest, same] using counted.lands, counted.account⟩

theorem coherent_withoutRequest (coherent : Coherent client)
    (found : client.pending[index]? = some request) (apart : Apart request) :
    Coherent (withoutRequest index client) := by
  have opens := opening_withoutRequest found apart.opening
  refine ⟨accounted_withoutRequest coherent.accounted found apart.labels apart.startIo
    apart.defaults, coherent.list.imp opens ?_, coherent.count.imp opens ?_⟩
  · exact fun listed => listed_withoutRequest listed found apart.list
  · exact fun counted => counted_withoutRequest counted found apart.count

theorem coherent_list {asked : ListRequest} {stored : Option ListRequest}
    (coherent : Coherent client) (found : client.pending[index]? = some (.list asked))
    (passes : Lands client.messageIds (lists client) client.lastList →
      Lands stored (lists (withoutRequest index client)) client.lastList) :
    Coherent { withoutRequest index client with messageIds := stored } := by
  have opens := opening_withoutRequest found rfl
  have accounted := accounted_withoutRequest coherent.accounted found rfl rfl rfl
  refine ⟨⟨accounted.labels, accounted.account⟩, coherent.list.imp opens ?_,
    coherent.count.imp opens ?_⟩
  · exact fun list => ⟨passes list.lands, list.account, list.view⟩
  · intro count
    have counted := counted_withoutRequest count found rfl
    exact ⟨counted.lands, counted.account⟩

variable {asked : AccountRequest} {stored : Option AccountRequest}

theorem coherent_count
    (coherent : Coherent client) (found : client.pending[index]? = some (.count asked))
    (passes : Lands client.unverifiedCount (counts client) client.lastCount →
      Lands stored (counts (withoutRequest index client)) client.lastCount) :
    Coherent { withoutRequest index client with unverifiedCount := stored } := by
  have opens := opening_withoutRequest found rfl
  have accounted := accounted_withoutRequest coherent.accounted found rfl rfl rfl
  refine ⟨⟨accounted.labels, accounted.account⟩, coherent.list.imp opens ?_,
    coherent.count.imp opens ?_⟩
  · intro list
    have listed := listed_withoutRequest list found rfl
    exact ⟨listed.lands, listed.account, listed.view⟩
  · exact fun count => ⟨passes count.lands, count.account⟩

theorem accounted_labels {opening : Bool} (accounted : Accounted client)
    (found : client.pending[index]? = some (.labels asked opening))
    (passes : Lands client.labels (labelRequests client) client.lastLabels →
      Lands stored (labelRequests (withoutRequest index client)) client.lastLabels) :
    Accounted { withoutRequest index client with labels := stored } := by
  have starts := filterMap_eraseIdx_of_none (f := Request.asStartIo) found rfl
  have prepares := filterMap_eraseIdx_of_none (f := Request.asDefaults) found rfl
  refine ⟨passes accounted.labels, ?_⟩
  simpa only [awaited, withoutRequest, starts, prepares] using accounted.account

theorem coherent_labels
    (coherent : Coherent client) (found : client.pending[index]? = some (.labels asked false))
    (passes : Lands client.labels (labelRequests client) client.lastLabels →
      Lands stored (labelRequests (withoutRequest index client)) client.lastLabels) :
    Coherent { withoutRequest index client with labels := stored } := by
  have opens := opening_withoutRequest found rfl
  refine ⟨accounted_labels coherent.accounted found passes, coherent.list.imp opens ?_,
    coherent.count.imp opens ?_⟩
  · intro list
    have listed := listed_withoutRequest list found rfl
    exact ⟨listed.lands, listed.account, listed.view⟩
  · intro count
    have counted := counted_withoutRequest count found rfl
    exact ⟨counted.lands, counted.account⟩

theorem coherent_showAccount (accountId : Nat) (coherent : Coherent client) :
    Coherent (showAccount accountId client) := by
  have opening : Opening (showAccount accountId client) := by
    simp [Opening, showAccount, Request.asOpening]
  refine ⟨⟨?_, ?_⟩, Or.inl opening, Or.inl opening⟩
  · simpa [showAccount, labelRequests, List.filterMap_cons, Request.asLabels]
      using coherent.accounted.labels
  · have last := lands_snoc (some client.lastLabels.accountId) (awaited client) accountId
    simpa [showAccount, awaited, List.filterMap_cons, Request.asStartIo, Request.asDefaults]
      using last

theorem coherent_applyDefaults {accountId : Nat} (coherent : Coherent client)
    (found : client.pending[index]? = some (.applyDefaults accountId))
    (first : oldest client index .applyDefaults = true) :
    Coherent (receive (withoutRequest index client) (.applyDefaults accountId)) := by
  have names := filterMap_eraseIdx_of_none (f := Request.asLabels) found rfl
  have starts := filterMap_eraseIdx_of_none (f := Request.asStartIo) found rfl
  have prepares := selects_defaults.eq_cons found rfl first
  have opening : Opening (receive (withoutRequest index client) (.applyDefaults accountId)) := by
    simp [Opening, receive, Request.asOpening]
  have same : awaited (receive (withoutRequest index client) (.applyDefaults accountId)) =
      awaited client := by
    simp [awaited, receive, withoutRequest, List.filterMap_cons, Request.asStartIo,
      Request.asDefaults, starts, prepares]
  refine ⟨⟨?_, ?_⟩, Or.inl opening, Or.inl opening⟩
  · simpa [receive, labelRequests, withoutRequest, List.filterMap_cons, Request.asLabels, names]
      using coherent.accounted.labels
  · rw [same]
    exact coherent.accounted.account

theorem coherent_startIo {accountId : Nat} (coherent : Coherent client)
    (found : client.pending[index]? = some (.startIo accountId))
    (first : oldest client index .startIo = true) :
    Coherent (receive (withoutRequest index client) (.startIo accountId)) := by
  have prepares := filterMap_eraseIdx_of_none (f := Request.asDefaults) found rfl
  have starts := selects_startIo.eq_cons found rfl first
  have opening : Opening (receive (withoutRequest index client) (.startIo accountId)) := by
    simp [Opening, receive, getLabels, Request.asOpening]
  have queue : awaited client = accountId :: awaited (withoutRequest index client) := by
    simp only [awaited, withoutRequest, starts, prepares, List.cons_append]
  have account := coherent.accounted.account
  rw [queue] at account
  exact ⟨accounted_getLabels accountId true account.take, Or.inl opening, Or.inl opening⟩

/-! ## Every step -/

theorem coherent_answered (coherent : Coherent client)
    (found : client.pending[index]? = some request)
    (inOrder : orderly client (.answered index) = true) :
    Coherent (receive (withoutRequest index client) request) := by
  simp only [orderly, found] at inOrder
  cases request with
  | list asked =>
    exact coherent_list coherent found (selects_list.take found rfl inOrder)
  | count asked =>
    exact coherent_count coherent found (selects_count.take found rfl inOrder)
  | labels asked opening =>
    have passes : Lands client.labels (labelRequests client) client.lastLabels →
        Lands (some asked) (labelRequests (withoutRequest index client)) client.lastLabels :=
      selects_labels.take found rfl inOrder
    cases opening with
    | false => exact coherent_labels coherent found passes
    | true => exact coherent_reload (accounted_labels coherent.accounted found passes)
  | selectAccount accountId =>
    exact coherent_showAccount accountId
      (coherent_withoutRequest coherent found (apart_selectAccount accountId))
  | applyDefaults accountId => exact coherent_applyDefaults coherent found inOrder
  | startIo accountId => exact coherent_startIo coherent found inOrder
  | deleteLabel labelId =>
    have elsewhere : client.view ≠ .label labelId := bne_iff_ne.mp inOrder
    have stays : leaveLabel labelId (withoutRequest index client) =
        withoutRequest index client := if_neg elsewhere
    rw [receive, stays]
    exact coherent_refreshLabels
      (coherent_withoutRequest coherent found (apart_deleteLabel labelId))

theorem coherent_failed (coherent : Coherent client) (found : client.pending[index]? = some request)
    (inOrder : orderly client (.failed index) = true) :
    Coherent (refuse (withoutRequest index client) request) := by
  simp only [orderly, found] at inOrder
  cases request with
  | list asked =>
    exact coherent_list coherent found (selects_list.skip found rfl inOrder)
  | count asked =>
    exact coherent_count coherent found (selects_count.skip found rfl inOrder)
  | labels asked opening =>
    cases opening with
    | false => exact coherent_labels coherent found (selects_labels.skip found rfl inOrder)
    | true => exact absurd inOrder Bool.false_ne_true
  | selectAccount accountId =>
    exact coherent_withoutRequest coherent found (apart_selectAccount accountId)
  | applyDefaults accountId => exact absurd inOrder Bool.false_ne_true
  | startIo accountId => exact absurd inOrder Bool.false_ne_true
  | deleteLabel labelId =>
    exact coherent_withoutRequest coherent found (apart_deleteLabel labelId)

end Answers

theorem coherent_step (client : Client) (event : Event) (coherent : Coherent client)
    (inOrder : orderly client event = true) : Coherent (step client event) := by
  cases event with
  | setView view =>
    have accounted := coherent.accounted
    exact coherent_reload ⟨accounted.labels, accounted.account⟩
  | mailChanged => exact coherent_reload coherent.accounted
  | switchAccount accountId =>
    rw [step, switchAccount]
    split
    · exact coherent
    · exact coherent_issue coherent (apart_selectAccount accountId)
  | openAccount accountId => exact coherent_issue coherent (apart_selectAccount accountId)
  | drawTags => exact coherent_refreshLabels coherent
  | deleteLabel labelId => exact coherent_issue coherent (apart_deleteLabel labelId)
  | answered index =>
    rw [step]
    split
    · exact coherent
    · exact coherent_answered coherent (by assumption) inOrder
  | failed index =>
    rw [step]
    split
    · exact coherent
    · exact coherent_failed coherent (by assumption) inOrder

/-- Answers that come in order and fail only when another is on its way leave nothing
stale on screen: once nothing is pending, what is stored answers the last question
of each kind, and that was about the account and the view that are open. -/
theorem nothing_stale_in_order (accountId : Nat) (view : View) (events : List Event)
    (inOrder : MeetsAll step (fun client event => orderly client event = true)
      (booted accountId view) events) :
    NothingStale (runAll step (booted accountId view) events) :=
  nothingStale_of_coherent
    (invariant_of_meetsAll coherent_step events _ (coherent_booted accountId view) inOrder)

/-- Sent is opened and another account after it, while the inbox is still being asked for. -/
def inPeace : List Event :=
  [.setView (.tag "sent"), .switchAccount 2, .failed 0, .answered 3, .answered 0, .answered 0,
    .mailChanged, .answered 0, .answered 0, .answered 2, .answered 0, .answered 0, .answered 0,
    .answered 0, .answered 0]

theorem nothingStale_inPeace : (runAll step (booted 1 .inbox) inPeace).pending = [] ∧
      NothingStale (runAll step (booted 1 .inbox) inPeace) :=
  ⟨by decide, nothing_stale_in_order 1 .inbox inPeace (by decide)⟩

/-- Sent is opened before the inbox was listed, and its list comes first. -/
def overtaken : List Event :=
  [.setView (.tag "sent"), .answered 2, .answered 0, .answered 0, .answered 0]

/-- The list of the inbox stays under the heading of Sent. -/
theorem overtaken_leaves_inbox : (runAll step (booted 1 .inbox) overtaken).pending = [] ∧
      (runAll step (booted 1 .inbox) overtaken).view = .tag "sent" ∧
      (runAll step (booted 1 .inbox) overtaken).messageIds = some ⟨1, 1, .inbox⟩ ∧
      ¬NothingStale (runAll step (booted 1 .inbox) overtaken) := by
  refine ⟨by decide, by decide, by decide, ?_⟩
  intro fresh
  have current := fresh (by decide)
  exact absurd current.list (by decide)

/-- The label that was open is deleted, and its list stays under the heading of the inbox. -/
def labelDeleted : List Event :=
  [.deleteLabel 12, .answered 0, .answered 0, .answered 0, .answered 0]

example :
    (runAll step (booted 1 (.label 12)) labelDeleted).pending = [] ∧
      (runAll step (booted 1 (.label 12)) labelDeleted).view = .inbox ∧
      (runAll step (booted 1 (.label 12)) labelDeleted).messageIds = some ⟨1, 1, .label 12⟩ := by
  decide

/-- The account is started for nothing: its labels fail, and those of the account that
was left stay. -/
def openingFailed : List Event :=
  [.answered 0, .answered 0, .switchAccount 2, .answered 0, .answered 0, .answered 0, .failed 0]

example :
    (runAll step (booted 1 .inbox) openingFailed).pending = [] ∧
      (runAll step (booted 1 .inbox) openingFailed).accountId = 2 ∧
      (runAll step (booted 1 .inbox) openingFailed).labels = some ⟨0, 1⟩ := by
  decide

end Eeemail.Desktop.Requests
