import Eeemail.Lib.Runs
import Eeemail.Trash

/-! # Copies on the server

The retention part of `core/src/email/policy.rs`.  A copy on the server is a row
of `imap`, and an empty `target` is what has it deleted.  The setting is read
once, when a message arrives: it marks the copy then, or leaves a deadline in
`server_retention` for housekeeping, or nothing at all.  So what has become of a
listing is a function of the arrivals and of the setting that was chosen last before
each; as a number of days is what is stored, no days are none at all. -/

set_option autoImplicit false

namespace Eeemail.ServerCopies

open Lib.Texts Lib.Tables Lib.Runs Store Trash

structure ImapRow where
  rfc724Mid : Text
  /-- The folder it belongs into; a copy without one is to be deleted. -/
  target : Text
  deriving DecidableEq, Repr

structure RetentionRow where
  rfc724Mid : Text
  deleteAt : Int
  deriving DecidableEq, Repr

structure Server where
  /-- The setting `ServerRetentionDays`. -/
  serverRetentionDays : Int := 0
  imap : List ImapRow := []
  serverRetention : List RetentionRow := []
  deriving DecidableEq, Repr

inductive ServerRetention where
  | deleteAfterDownload
  | days (count : Nat)
  | never
  deriving DecidableEq, Repr

def ServerRetention.fromDays (days : Int) : ServerRetention :=
  if days = 0 then .deleteAfterDownload else if days < 0 then .never else .days days.natAbs

def Server.retention (server : Server) : ServerRetention :=
  .fromDays (configInt server.serverRetentionDays)

def setRetention (retention : ServerRetention) (server : Server) : Server :=
  { server with
    serverRetentionDays :=
      match retention with
      | .deleteAfterDownload => 0
      | .never => -1
      | .days count => if count < 2 ^ 31 then count else 2 ^ 31 - 1 }

/-! ## Deleting -/

def deleteFromServer (mid : Text) (server : Server) : Server :=
  { server with
    imap := updateWhere (fun row => row.rfc724Mid == mid) (fun row => { row with target := [] })
      server.imap }

def applyServerRetention (mid : Text) (now : Int) (server : Server) : Server :=
  if mid.isEmpty then server
  else
    match server.retention with
    | .never => server
    | .deleteAfterDownload => deleteFromServer mid server
    | .days count =>
      { server with
        serverRetention := insertOrIgnore RetentionRow.rfc724Mid
          { rfc724Mid := mid
            deleteAt := saturatingAdd now (saturatingMul count secondsPerDay) }
          server.serverRetention }

def elapsed (now : Int) (server : Server) : List Text :=
  (server.serverRetention.filter fun row => row.deleteAt ≤ now).map (·.rfc724Mid)

def expireOne (server : Server) (mid : Text) : Server :=
  { deleteFromServer mid server with
    serverRetention := deleteWhere (fun row => row.rfc724Mid == mid) server.serverRetention }

def expireAll (mids : List Text) (server : Server) : Server := mids.foldl expireOne server

def expireOnServer (now : Int) (server : Server) : Nat × Server :=
  if (elapsed now server).isEmpty then (0, server)
  else ((elapsed now server).length, expireAll (elapsed now server) server)

/-! ## Runs -/

/-- The Message-ID of a received message: `parse_message_id` does not give an empty
one, and a message without one gets one. -/
@[ext]
structure MessageId where
  text : Text
  nonempty : text ≠ []

instance : DecidableEq MessageId := fun _ _ => decidable_of_iff _ MessageId.ext_iff.symm

inductive Op where
  /-- A message was stored: the end of `receive_imf_inner`. -/
  | received (mid : MessageId)
  | setRetention (retention : ServerRetention)
  /-- The setting is written without `ServerRetention::set`. -/
  | configure (days : Int)
  | housekeeping
  deriving DecidableEq

/-- An operation and the seconds since the epoch when it runs. -/
structure Event where
  now : Nat
  op : Op
  deriving DecidableEq

def step (server : Server) (event : Event) : Server :=
  match event.op with
  | .received mid => applyServerRetention mid.text event.now server
  | .setRetention retention => setRetention retention server
  | .configure days => { server with serverRetentionDays := days }
  | .housekeeping => (expireOnServer event.now server).2

def arrivals (events : List Event) : List Text :=
  events.filterMap fun event =>
    match event.op with
    | .received mid => some mid.text
    | _ => none

/-! ## What a history says -/

/-- How the setting is read off a history: the one there was at first, and what each
operation chooses. -/
structure Reading where
  first : ServerRetention
  chosen : Op → Option ServerRetention

/-- The setting in force is the one that was chosen last. -/
def Reading.settingAfter (reading : Reading) (events : List Event) : ServerRetention :=
  (events.filterMap fun event => reading.chosen event.op).getLast?.getD reading.first

/-- What a number of days in the settings stands for, which is an `i32`; any other value
is as good as none. -/
def ofNumber (days : Int) : ServerRetention :=
  if -(2 ^ 31) ≤ days ∧ days < 0 then .never
  else if 0 < days ∧ days < 2 ^ 31 then .days days.toNat
  else .deleteAfterDownload

/-- To keep a copy for no days is to delete it on arrival, and there are at most
`i32::MAX` days. -/
def limited : ServerRetention → ServerRetention
  | .deleteAfterDownload => .deleteAfterDownload
  | .never => .never
  | .days count => if count = 0 then .deleteAfterDownload else .days (min count (2 ^ 31 - 1))

def inForce (start : Server) : Reading where
  first := ofNumber start.serverRetentionDays
  chosen
    | .setRetention retention => some (limited retention)
    | .configure days => some (ofNumber days)
    | .received _ | .housekeeping => none

/-- The same, without the limits. -/
def asAsked (start : Server) : Reading where
  first := ofNumber start.serverRetentionDays
  chosen
    | .setRetention retention => some retention
    | .configure days => some (ofNumber days)
    | .received _ | .housekeeping => none

/-- The days have passed since the arrival, on a clock that ends with `i64`. -/
def Elapsed (arrived days now : Nat) : Prop :=
  min i64Max (arrived + days * secondsPerDay) ≤ now

/-- A message arrived at some time under some setting; `later` is what followed. -/
def ArrivedUnder (reading : Reading) (events : List Event) (mid : Text) (arrived : Nat)
    (setting : ServerRetention) (later : List Event) : Prop :=
  ∃ early id, events = early ++ { now := arrived, op := .received id } :: later ∧ id.text = mid ∧
    reading.settingAfter early = setting

/-- The copy was to be deleted on arrival, or its days had passed at some housekeeping. -/
inductive Marked (reading : Reading) (events : List Event) (mid : Text) : Prop where
  | onArrival {arrived : Nat} {later : List Event}
      (arrival : ArrivedUnder reading events mid arrived .deleteAfterDownload later)
  | afterDays {arrived days : Nat} {later : List Event}
      (arrival : ArrivedUnder reading events mid arrived (.days days) later) (pass : Event)
      (isLater : pass ∈ later) (isPass : pass.op = .housekeeping)
      (passed : Elapsed arrived days pass.now)

open Classical in
noncomputable def marking (marked : Text → Prop) (rows : List ImapRow) : List ImapRow :=
  rows.map fun row => if marked row.rfc724Mid then { row with target := [] } else row

/-- The deadline of a message whose days have not passed at any housekeeping. -/
def Pending (reading : Reading) (events : List Event) (row : RetentionRow) : Prop :=
  ∃ arrived days later, ArrivedUnder reading events row.rfc724Mid arrived (.days days) later ∧
    row.deleteAt = saturatingAdd arrived (saturatingMul days secondsPerDay) ∧
    ∀ pass ∈ later, pass.op = .housekeeping → ¬Elapsed arrived days pass.now

theorem deleteAt_le_iff (arrived days now : Nat) :
    saturatingAdd arrived (saturatingMul days secondsPerDay) ≤ now ↔ Elapsed arrived days now := by
  unfold Elapsed saturatingAdd saturatingMul saturate i64Min i64Max secondsPerDay
  omega

variable {arrived : Nat} {later : List Event}

section History

variable {reading : Reading} {events : List Event} {event : Event} {mid : Text}

theorem arrivedUnder_snoc {setting : ServerRetention} :
    ArrivedUnder reading (events ++ [event]) mid arrived setting later ↔
      (∃ before, later = before ++ [event] ∧
        ArrivedUnder reading events mid arrived setting before) ∨
        (later = [] ∧ (∃ id : MessageId, event = { now := arrived, op := .received id } ∧
          id.text = mid) ∧ reading.settingAfter events = setting) := by
  constructor
  · rintro ⟨early, id, split, same, found⟩
    rcases List.eq_nil_or_concat later with rfl | ⟨before, last, rfl⟩
    · obtain ⟨rfl, last⟩ := List.append_inj' split rfl
      exact Or.inr ⟨rfl, ⟨id, List.singleton_inj.mp last, same⟩, found⟩
    · rw [List.concat_eq_append, ← List.cons_append, ← List.append_assoc] at split
      obtain ⟨whole, isLast⟩ := List.append_inj' split rfl
      rw [List.singleton_inj.mp isLast]
      exact Or.inl ⟨before, List.concat_eq_append, early, id, whole, same, found⟩
  · rintro (⟨before, rfl, early, id, rfl, same, found⟩ | ⟨rfl, ⟨id, rfl, same⟩, found⟩)
    · exact ⟨early, id, by simp, same, found⟩
    · exact ⟨events, id, rfl, same, found⟩

theorem ArrivedUnder.mem_arrivals {setting : ServerRetention}
    (arrival : ArrivedUnder reading events mid arrived setting later) : mid ∈ arrivals events := by
  obtain ⟨early, id, rfl, rfl, _⟩ := arrival
  simp [arrivals]

theorem ArrivedUnder.snoc {setting : ServerRetention}
    (arrival : ArrivedUnder reading events mid arrived setting later) (event : Event) :
    ArrivedUnder reading (events ++ [event]) mid arrived setting (later ++ [event]) :=
  arrivedUnder_snoc.mpr (Or.inl ⟨later, rfl, arrival⟩)

theorem arrivedUnder_last {setting : ServerRetention} {id : MessageId}
    (isReceived : event.op = .received id) (same : id.text = mid)
    (found : reading.settingAfter events = setting) :
    ArrivedUnder reading (events ++ [event]) mid event.now setting [] := by
  refine ⟨events, id, ?_, same, found⟩
  rw [← isReceived]

theorem marked_snoc :
    Marked reading (events ++ [event]) mid ↔
      Marked reading events mid ∨
        ((∃ id : MessageId, event.op = .received id ∧ id.text = mid) ∧
          reading.settingAfter events = .deleteAfterDownload) ∨
        (event.op = .housekeeping ∧
          ∃ row, Pending reading events row ∧ row.rfc724Mid = mid ∧ row.deleteAt ≤ event.now) := by
  constructor
  · rintro (arrival | @⟨arrived, days, _, arrival, pass, isLater, isPass, passed⟩)
    · rcases arrivedUnder_snoc.mp arrival with ⟨before, _, earlier⟩ | ⟨_, ⟨id, rfl, same⟩, found⟩
      · exact Or.inl (.onArrival earlier)
      · exact Or.inr (Or.inl ⟨⟨id, rfl, same⟩, found⟩)
    · rcases arrivedUnder_snoc.mp arrival with ⟨before, rfl, earlier⟩ | ⟨rfl, _, _⟩
      · by_cases already : ∃ pass ∈ before, pass.op = .housekeeping ∧ Elapsed arrived days pass.now
        · obtain ⟨pass, isBefore, isPass, passed⟩ := already
          exact Or.inl (.afterDays earlier pass isBefore isPass passed)
        · -- No pass before found the days over, so the deadline is still there.
          rcases List.mem_append.mp isLater with isBefore | isLast
          · exact absurd ⟨pass, isBefore, isPass, passed⟩ already
          · obtain rfl := List.mem_singleton.mp isLast
            refine Or.inr (Or.inr ⟨isPass, ⟨mid, _⟩, ⟨_, _, before, earlier, rfl, ?_⟩, rfl,
              (deleteAt_le_iff _ _ _).mpr passed⟩)
            exact fun pass isBefore isPass passed => already ⟨pass, isBefore, isPass, passed⟩
      · exact absurd isLater List.not_mem_nil
  · rintro (marked | ⟨⟨id, isReceived, same⟩, found⟩ | ⟨isPass, row, pending, rfl, due⟩)
    · cases marked with
      | onArrival arrival => exact .onArrival (arrival.snoc event)
      | afterDays arrival pass isLater isPass passed =>
        exact .afterDays (arrival.snoc event) pass (List.mem_append_left _ isLater) isPass passed
    · exact .onArrival (arrivedUnder_last isReceived same found)
    · obtain ⟨arrived, days, later, arrival, isDeadline, _⟩ := pending
      refine .afterDays (arrival.snoc event) event (List.mem_append_right _ List.mem_cons_self)
        isPass ((deleteAt_le_iff _ _ _).mp ?_)
      rw [← isDeadline]
      exact due

theorem pending_snoc {row : RetentionRow} :
    Pending reading (events ++ [event]) row ↔
      (Pending reading events row ∧ (event.op = .housekeeping → ¬row.deleteAt ≤ event.now)) ∨
        ∃ days, (∃ id : MessageId, event.op = .received id ∧ id.text = row.rfc724Mid) ∧
          reading.settingAfter events = .days days ∧
          row.deleteAt = saturatingAdd event.now (saturatingMul days secondsPerDay) := by
  constructor
  · rintro ⟨arrived, days, later, arrival, isDeadline, waits⟩
    rcases arrivedUnder_snoc.mp arrival with ⟨before, rfl, earlier⟩ | ⟨rfl, ⟨id, rfl, same⟩, found⟩
    · refine Or.inl ⟨⟨arrived, days, before, earlier, isDeadline, ?_⟩, ?_⟩
      · exact fun pass isBefore => waits pass (List.mem_append_left _ isBefore)
      · intro isPass due
        rw [isDeadline, deleteAt_le_iff] at due
        exact waits event (List.mem_append_right _ List.mem_cons_self) isPass due
    · exact Or.inr ⟨days, ⟨id, rfl, same⟩, found, isDeadline⟩
  · rintro (⟨⟨arrived, days, later, arrival, isDeadline, waits⟩, notDue⟩ |
      ⟨days, ⟨id, isReceived, same⟩, found, isDeadline⟩)
    · refine ⟨arrived, days, later ++ [event], arrival.snoc event, isDeadline, ?_⟩
      intro pass isLater isPass
      rcases List.mem_append.mp isLater with isBefore | isLast
      · exact waits pass isBefore isPass
      · obtain rfl := List.mem_singleton.mp isLast
        rw [← deleteAt_le_iff, ← isDeadline]
        exact notDue isPass
    · refine ⟨event.now, days, [], arrivedUnder_last isReceived same found, isDeadline, ?_⟩
      exact fun pass isLater => absurd isLater List.not_mem_nil

end History

/-! ## Marking -/

section Marking

variable {marked other : Text → Prop} {rows : List ImapRow} {server : Server}

theorem marking_congr (same : ∀ mid, marked mid ↔ other mid) :
    marking marked rows = marking other rows := by
  rw [funext fun mid => propext (same mid)]

theorem marking_nobody (nobody : ∀ mid, ¬marked mid) : marking marked rows = rows := by
  simp [marking, nobody]

theorem deleteFromServer_marking {mid : Text} (listed : server.imap = marking marked rows) :
    (deleteFromServer mid server).imap =
      marking (fun other => marked other ∨ other = mid) rows := by
  simp only [deleteFromServer, listed, marking, updateWhere, List.map_map]
  refine List.map_congr_left fun row _ => ?_
  simp only [Function.comp_apply]
  by_cases already : marked row.rfc724Mid
  · simp [already]
  · simp [already]

theorem expireAll_imap {mids : List Text} (listed : server.imap = marking marked rows) :
    (expireAll mids server).imap = marking (fun mid => marked mid ∨ mid ∈ mids) rows := by
  induction mids generalizing server marked with
  | nil =>
    refine listed.trans (marking_congr fun mid => ?_)
    simp
  | cons first rest ih =>
    have next : (expireOne server first).imap =
        marking (fun mid => marked mid ∨ mid = first) rows := deleteFromServer_marking listed
    refine (ih next).trans (marking_congr fun mid => ?_)
    simp only [List.mem_cons, or_assoc]

theorem expireAll_serverRetention (mids : List Text) (server : Server) :
    (expireAll mids server).serverRetention =
      deleteWhere (fun row => mids.contains row.rfc724Mid) server.serverRetention := by
  induction mids generalizing server with
  | nil => simp [expireAll, deleteWhere]
  | cons first rest ih =>
    refine (ih _).trans ?_
    simp only [expireOne, deleteWhere, List.filter_filter, List.contains_cons, Bool.not_or,
      Bool.and_comm]

theorem expireOnServer_snd (now : Int) (server : Server) :
    (expireOnServer now server).2 = expireAll (elapsed now server) server := by
  unfold expireOnServer
  split
  next none' =>
    rw [List.isEmpty_iff.mp none']
    rfl
  next => rfl

end Marking

/-- The tables hold what the history says. -/
structure Tracks (start : Server) (events : List Event) (server : Server) : Prop where
  imap : server.imap = marking (Marked (inForce start) events) start.imap
  pending : ∀ row, row ∈ server.serverRetention ↔ Pending (inForce start) events row
  keys : (server.serverRetention.map RetentionRow.rfc724Mid).Nodup

section Run

variable {start server : Server} {events : List Event} {now : Nat}

/-! ### The setting -/

theorem fromDays_configInt (days : Int) :
    ServerRetention.fromDays (configInt days) = ofNumber days := by
  unfold configInt ofNumber ServerRetention.fromDays
  grind

theorem retention_setRetention (retention : ServerRetention) :
    (setRetention retention server).retention = limited retention := by
  refine (fromDays_configInt _).trans ?_
  cases retention with
  | deleteAfterDownload | never => rfl
  | days count =>
    unfold setRetention limited ofNumber
    grind

theorem serverRetentionDays_applyServerRetention (mid : Text) (now : Int) :
    (applyServerRetention mid now server).serverRetentionDays = server.serverRetentionDays := by
  unfold applyServerRetention
  split
  · rfl
  · split <;> rfl

theorem serverRetentionDays_expireAll (mids : List Text) :
    (expireAll mids server).serverRetentionDays = server.serverRetentionDays := by
  induction mids generalizing server with
  | nil => rfl
  | cons mid rest ih => exact ih

theorem retention_runAll (start : Server) (events : List Event) :
    (runAll step start events).retention = (inForce start).settingAfter events := by
  induction events using List.reverseRecOn with
  | nil => exact fromDays_configInt _
  | append_singleton events event ih =>
    have unchanged (none' : (inForce start).chosen event.op = none)
        (same : (step (runAll step start events) event).serverRetentionDays =
          (runAll step start events).serverRetentionDays) :
        (step (runAll step start events) event).retention =
          (inForce start).settingAfter (events ++ [event]) := by
      rw [Server.retention, same, ← Server.retention, ih]
      simp [Reading.settingAfter, none']
    have changed {setting : ServerRetention}
        (chosen : (inForce start).chosen event.op = some setting)
        (read : (step (runAll step start events) event).retention = setting) :
        (step (runAll step start events) event).retention =
          (inForce start).settingAfter (events ++ [event]) := by
      rw [read]
      simp [Reading.settingAfter, chosen]
    rw [runAll_snoc]
    obtain ⟨now, op⟩ := event
    cases op with
    | received mid => exact unchanged rfl (serverRetentionDays_applyServerRetention _ _)
    | housekeeping =>
      refine unchanged rfl ?_
      simp only [step]
      rw [expireOnServer_snd, serverRetentionDays_expireAll]
    | setRetention retention => exact changed rfl (retention_setRetention retention)
    | configure days => exact changed rfl (fromDays_configInt days)

/-! ### The tables -/

theorem not_arrivedUnder_nil {mid : Text} {setting : ServerRetention} :
    ¬ArrivedUnder (inForce start) [] mid arrived setting later := by
  rintro ⟨early, id, split, _⟩
  simp at split

theorem tracks_nil (noRows : start.serverRetention = []) : Tracks start [] start where
  imap := by
    refine (marking_nobody fun mid => ?_).symm
    rintro (arrival | arrival)
    · exact not_arrivedUnder_nil arrival
    · exact not_arrivedUnder_nil arrival
  pending row := by
    rw [noRows]
    refine iff_of_false List.not_mem_nil ?_
    rintro ⟨_, _, _, arrival, _⟩
    exact not_arrivedUnder_nil arrival
  keys := by
    rw [noRows]
    exact List.nodup_nil

theorem Tracks.setting (tracks : Tracks start events server) (op : Op)
    (notReceived : ∀ mid, op ≠ .received mid) (notPass : op ≠ .housekeeping) (days : Int) :
    Tracks start (events ++ [⟨now, op⟩]) { server with serverRetentionDays := days } where
  imap := by
    refine tracks.imap.trans (marking_congr fun mid => ?_)
    simp [marked_snoc, notReceived, notPass]
  pending row := by
    refine (tracks.pending row).trans ?_
    simp [pending_snoc, notReceived, notPass]
  keys := tracks.keys

theorem Tracks.received (tracks : Tracks start events (runAll step start events)) (mid : MessageId)
    (fresh : mid.text ∉ arrivals events) :
    Tracks start (events ++ [⟨now, .received mid⟩])
      (applyServerRetention mid.text now (runAll step start events)) := by
  have unknown : ∀ row ∈ (runAll step start events).serverRetention, row.rfc724Mid ≠ mid.text := by
    intro row member same
    obtain ⟨_, _, _, arrival, _⟩ := (tracks.pending row).mp member
    exact fresh (same ▸ arrival.mem_arrivals)
  rw [applyServerRetention, if_neg (by simpa using mid.nonempty)]
  rw [retention_runAll]
  cases found : (inForce start).settingAfter events with
  | never =>
    refine ⟨tracks.imap.trans (marking_congr fun mid => ?_), fun row => ?_, tracks.keys⟩
    · simp [marked_snoc, found]
    · simp [tracks.pending, pending_snoc, found]
  | deleteAfterDownload =>
    refine ⟨(deleteFromServer_marking tracks.imap).trans (marking_congr fun mid => ?_),
      fun row => ?_, tracks.keys⟩
    · simp [marked_snoc, found, eq_comm]
    · simp [deleteFromServer, tracks.pending, pending_snoc, found]
  | days count =>
    refine ⟨tracks.imap.trans (marking_congr fun mid => ?_), fun row => ?_,
      nodup_map_insertOrIgnore tracks.keys⟩
    · simp [marked_snoc, found]
    · rw [mem_insertOrIgnore, tracks.pending, pending_snoc]
      refine or_congr (by simp) ⟨?_, ?_⟩
      · rintro ⟨rfl, _⟩
        exact ⟨count, ⟨mid, rfl, rfl⟩, found, rfl⟩
      · rintro ⟨days, ⟨id, isReceived, same⟩, isSetting, isDeadline⟩
        obtain rfl : mid = id := Op.received.inj isReceived
        obtain rfl : count = days := ServerRetention.days.inj (found.symm.trans isSetting)
        refine ⟨?_, unknown⟩
        rw [RetentionRow.mk.injEq]
        exact ⟨same.symm, isDeadline⟩

theorem mem_elapsed {mid : Text} :
    mid ∈ elapsed now server ↔
      ∃ row ∈ server.serverRetention, row.rfc724Mid = mid ∧ row.deleteAt ≤ now := by
  simp only [elapsed, List.mem_map, List.mem_filter, decide_eq_true_eq]
  exact exists_congr fun row => ⟨fun both => ⟨both.1.1, both.2, both.1.2⟩,
    fun all => ⟨⟨all.1, all.2.2⟩, all.2.1⟩⟩

theorem Tracks.expired (tracks : Tracks start events server) :
    Tracks start (events ++ [⟨now, .housekeeping⟩]) (expireOnServer now server).2 := by
  rw [expireOnServer_snd]
  refine ⟨(expireAll_imap tracks.imap).trans (marking_congr fun mid => ?_), fun row => ?_, ?_⟩
  · simp [marked_snoc, mem_elapsed, tracks.pending]
  · have spared (member : row ∈ server.serverRetention) :
        row.rfc724Mid ∈ elapsed now server ↔ row.deleteAt ≤ now := by
      rw [mem_elapsed]
      refine ⟨?_, fun due => ⟨row, member, rfl, due⟩⟩
      rintro ⟨other, isOther, same, due⟩
      exact eq_of_key_eq tracks.keys isOther member same ▸ due
    rw [expireAll_serverRetention, mem_deleteWhere, pending_snoc, ← tracks.pending]
    simp only [reduceCtorEq, false_and, exists_false, or_false, forall_const]
    refine and_congr_right fun member => ?_
    rw [← spared member, ← List.contains_iff_mem, Bool.not_eq_true]
  · rw [expireAll_serverRetention]
    exact nodup_map_deleteWhere tracks.keys

theorem tracks_run (noRows : start.serverRetention = []) (once : (arrivals events).Nodup) :
    Tracks start events (runAll step start events) := by
  induction events using List.reverseRecOn with
  | nil => exact tracks_nil noRows
  | append_singleton events event ih =>
    rw [arrivals, List.filterMap_append, List.nodup_append] at once
    obtain ⟨earlier, _, apart⟩ := once
    have tracks := ih earlier
    obtain ⟨now, op⟩ := event
    rw [runAll_snoc]
    cases op with
    | received mid =>
      refine tracks.received mid fun known => ?_
      exact apart _ known _ (List.mem_singleton_self _) rfl
    | setRetention retention => exact tracks.setting (.setRetention retention) nofun nofun _
    | configure days => exact tracks.setting (.configure days) nofun nofun days
    | housekeeping => exact tracks.expired

/-- What the server lists after each event of a run: copies are marked by the setting
in force when their message arrived, on arrival or after its days, and by nothing else. -/
theorem copies_marked_by_setting_on_arrival (noRows : start.serverRetention = [])
    (once : (arrivals events).Nodup) (count : Nat) :
    (runAll step start (events.take count)).imap =
      marking (Marked (inForce start) (events.take count)) start.imap :=
  (tracks_run noRows (once.sublist ((List.take_sublist count events).filterMap _))).imap

end Run

def threeCopies : Server :=
  { imap := ["a".toList, "b".toList, "c".toList].map fun mid =>
      { rfc724Mid := mid, target := "INBOX".toList } }

def changingMinds : List Event :=
  [⟨1000, .received ⟨"a".toList, by decide⟩⟩,
   ⟨2000, .setRetention (.days 7)⟩,
   ⟨3000, .received ⟨"b".toList, by decide⟩⟩,
   ⟨4000, .setRetention .deleteAfterDownload⟩,
   ⟨5000, .housekeeping⟩]

theorem copies_marked_while_minds_change : (runAll step threeCopies (changingMinds.take 4)).imap =
      marking (Marked (inForce threeCopies) (changingMinds.take 4)) threeCopies.imap :=
  copies_marked_by_setting_on_arrival rfl (by decide : (arrivals changingMinds).Nodup) 4

/-- The copy that is to stay for a week is there until then, and the one whose message
never arrived stays. -/
example :
    (runAll step threeCopies changingMinds).imap.map (·.target) =
        [[], "INBOX".toList, "INBOX".toList] ∧
      (runAll step threeCopies (changingMinds ++ [⟨607800, .housekeeping⟩])).imap.map (·.target) =
        [[], [], "INBOX".toList] := by
  decide

def zeroDays : List Event :=
  [⟨1000, .setRetention (.days 0)⟩, ⟨1000, .received ⟨"a".toList, by decide⟩⟩]

theorem zero_days_mark_on_arrival :
    (runAll step threeCopies zeroDays).imap ≠
      marking (Marked (asAsked threeCopies) zeroDays) threeCopies.imap := by
  have unmarked : ¬Marked (asAsked threeCopies) zeroDays "a".toList := by
    have latest {arrived : Nat} {setting : ServerRetention} {later : List Event}
        (arrival : ArrivedUnder (asAsked threeCopies) zeroDays "a".toList arrived setting later) :
        later = [] ∧ setting = .days 0 := by
      change ArrivedUnder _ ([⟨1000, .setRetention (.days 0)⟩] ++ [_]) _ _ _ _ at arrival
      rcases arrivedUnder_snoc.mp arrival with ⟨before, _, early, id, whole, _⟩ | ⟨rfl, _, found⟩
      · rcases early with _ | ⟨_, _ | _⟩ <;> simp at whole
      · exact ⟨rfl, found.symm⟩
    rintro (arrival | ⟨arrival, pass, isLater, _⟩)
    · cases (latest arrival).2
    · rw [(latest arrival).1] at isLater
      cases isLater
  intro same
  have first : (runAll step threeCopies zeroDays).imap.head?.map (·.target) = some [] := by decide
  rw [same] at first
  generalize Marked (asAsked threeCopies) zeroDays = marked at unmarked first
  simp [marking, threeCopies] at unmarked first
  simp [unmarked] at first

end Eeemail.ServerCopies
