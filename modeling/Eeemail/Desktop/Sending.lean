import Eeemail.Lib.Runs
import Eeemail.Lib.Texts

/-! # Sending

The submit handler of `desktop/src/views/composer.ts`, and what else touches the
draft while a `send_email` is pending.  That a message is being sent is known to
the closure of the form it was submitted from; the draft and the screen are
shared state.  A repaint replaces the closure, and the answer to the request
clears whatever draft is there by then. -/

set_option autoImplicit false

namespace Eeemail.Desktop.Sending

open Lib.Texts Lib.Runs

/-- `state.screen`, as far as the composer is concerned. -/
inductive Screen where
  | mail
  | composer
  | other
  deriving DecidableEq, Repr

/-- Drafts are objects: the number says which one. -/
abbrev DraftId := Nat

structure Form where
  number : Nat
  draft : DraftId
  sending : Bool
  deriving DecidableEq, Repr

structure Send where
  form : Nat
  draft : DraftId
  deriving DecidableEq, Repr

structure App where
  contents : DraftId → Text := fun _ => []
  nextDraft : DraftId := 0
  nextForm : Nat := 0
  composerDraft : Option DraftId := none
  screen : Screen := .mail
  form : Option Form := none
  pending : List Send := []

def start : App := {}

/-! ## What happens -/

def newDraft (text : Text) (app : App) : App :=
  { app with
    contents := Function.update app.contents app.nextDraft text
    composerDraft := some app.nextDraft
    nextDraft := app.nextDraft + 1 }

/-- `renderComposer`: a form for the draft there is, or for an empty one. -/
def renderComposer (app : App) : App :=
  let drawn := if app.composerDraft.isSome then app else newDraft [] app
  { drawn with
    form := drawn.composerDraft.map fun draft =>
      { number := app.nextForm, draft, sending := false }
    nextForm := app.nextForm + 1 }

def paint (app : App) : App :=
  match app.screen with
  | .composer => renderComposer app
  | .mail | .other => { app with form := none }

/-- The submit handler, which a disabled button keeps from running. -/
def submit (app : App) : App :=
  match app.form with
  | none => app
  | some form =>
    if form.sending then app
    else
      { app with
        form := some { form with sending := true }
        pending := app.pending ++ [{ form := form.number, draft := form.draft }] }

/-- What follows the `await` of `send_email` when it returns. -/
def completed (app : App) : App :=
  { app with composerDraft := none, screen := .mail }

/-- The `catch`, which only reaches the form that was submitted. -/
def failed (send : Send) (app : App) : App :=
  { app with
    form := app.form.map fun form =>
      if form.number = send.form then { form with sending := false } else form }

inductive Outcome where
  | ok
  /-- The message is sent, and the `reload` after it rejects. -/
  | stale
  | error
  deriving DecidableEq, Repr

def answer (index : Nat) (outcome : Outcome) (app : App) : App :=
  match app.pending[index]? with
  | none => app
  | some send =>
    match outcome with
    | .ok => completed { app with pending := app.pending.eraseIdx index }
    -- `reload` stands in the same `try`
    | .stale => failed send (completed { app with pending := app.pending.eraseIdx index })
    | .error => failed send { app with pending := app.pending.eraseIdx index }

inductive Event where
  | repaint
  /-- To a view of the mail or to another screen, the draft staying as it is. -/
  | navigate (screen : Screen)
  | compose
  /-- `openComposer`: a reply, with the text it starts with. -/
  | reply (text : Text)
  | edit (text : Text)
  /-- A submission of the form, which may be refused for what its fields say. -/
  | submit (refused : Bool)
  | discard
  | answer (index : Nat) (outcome : Outcome)
  deriving DecidableEq, Repr

def step (app : App) : Event → App
  | .repaint => paint app
  | .navigate screen => { app with screen }
  | .compose => { app with composerDraft := none, screen := .composer }
  | .reply text => { newDraft text app with screen := .composer }
  | .edit text =>
    match app.form with
    | none => app
    | some form =>
      { app with contents := Function.update app.contents form.draft text }
  | .submit refused => if refused then app else submit app
  | .discard =>
    if app.form.isSome then { app with composerDraft := none, screen := .mail }
    else app
  | .answer index outcome => answer index outcome app

/-! ## Sends and drafts -/

/-- The answer to a pending request leaves every draft alone but the one that was sent. -/
def SparesOthers (app : App) (index : Nat) (outcome : Outcome) : Prop :=
  ∀ send, app.pending[index]? = some send → ∀ draft, draft ≠ send.draft →
    (app.composerDraft = some draft → (answer index outcome app).composerDraft = some draft) ∧
      (answer index outcome app).contents draft = app.contents draft

/-- No draft is sent twice at a time, and no answer does anything to another one. -/
structure Belongs (app : App) : Prop where
  once : (app.pending.map (·.draft)).Nodup
  spares : ∀ index outcome, SparesOthers app index outcome

/-- While a request is pending, the composer is not drawn and no reply is opened; and a
form is not submitted once another draft has taken its place. -/
def Undisturbed (app : App) : Event → Prop
  | .repaint => app.pending = [] ∨ app.screen ≠ .composer
  | .reply _ => app.pending = []
  | .submit _ => ∀ form, app.form = some form →
      app.composerDraft = none ∨ app.composerDraft = some form.draft
  | .navigate _ | .compose | .edit _ | .discard | .answer _ _ => True

/-- The one request that can be pending is that of the form on screen, if there is a
form, and of the draft, if there is one. -/
def Alone (app : App) : Prop :=
  app.pending = [] ∨
    ∃ send, app.pending = [send] ∧
      (app.composerDraft = none ∨ app.composerDraft = some send.draft) ∧
      ∀ form, app.form = some form → form.sending = true

variable {app : App}

theorem Alone.of_pending {send : Send} (alone : Alone app)
    (pending : app.pending = [send]) :
    (app.composerDraft = none ∨ app.composerDraft = some send.draft) ∧
      ∀ form, app.form = some form → form.sending = true := by
  rcases alone with none | ⟨other, isPending, draft, sending⟩
  · rw [none] at pending
    cases pending
  · rw [isPending] at pending
    obtain rfl := (List.cons.inj pending).1
    exact ⟨draft, sending⟩

theorem Alone.submit (alone : Alone app) (current : ∀ form, app.form = some form →
      app.composerDraft = none ∨ app.composerDraft = some form.draft) :
    Alone (submit app) := by
  unfold Sending.submit
  cases isForm : app.form with
  | none => exact alone
  | some form =>
    simp only
    split
    next => exact alone
    next idle =>
      rcases alone with none | ⟨send, _, _, sending⟩
      · refine Or.inr ⟨{ form := form.number, draft := form.draft }, ?_, current form isForm, ?_⟩
        · rw [none]
          rfl
        · intro other isOther
          rw [← Option.some.inj isOther]
      · exact absurd (sending form isForm) idle

theorem Alone.answer (alone : Alone app) (index : Nat) (outcome : Outcome) :
    Alone (answer index outcome app) := by
  unfold Sending.answer
  cases isSend : app.pending[index]? with
  | none => exact alone
  | some send =>
    have emptied : app.pending.eraseIdx index = [] := by
      rcases alone with none | ⟨other, isPending, _⟩
      · rw [none] at isSend
        cases isSend
      · rw [isPending] at isSend ⊢
        cases index with
        | zero => rfl
        | succ later => cases isSend
    cases outcome with
    | ok | stale | error => exact Or.inl emptied

theorem Alone.of_same {changed : App} (alone : Alone app)
    (pending : changed.pending = app.pending)
    (draft : changed.composerDraft = none ∨ changed.composerDraft = app.composerDraft)
    (form : changed.form = none ∨ changed.form = app.form) : Alone changed := by
  rcases alone with none | ⟨send, isPending, current, sending⟩
  · exact Or.inl (pending.trans none)
  · refine Or.inr ⟨send, pending.trans isPending, ?_, ?_⟩
    · rcases draft with cleared | same
      · exact Or.inl cleared
      · rw [same]
        exact current
    · intro other isOther
      rcases form with gone | same
      · rw [gone] at isOther
        cases isOther
      · rw [same] at isOther
        exact sending other isOther

theorem pending_renderComposer (app : App) : (renderComposer app).pending = app.pending := by
  unfold renderComposer
  cases app.composerDraft.isSome <;> rfl

theorem Alone.step (alone : Alone app) {event : Event}
    (undisturbed : Undisturbed app event) : Alone (step app event) := by
  cases event with
  | repaint =>
    simp only [Sending.step, paint]
    cases isScreen : app.screen with
    | composer =>
      rcases undisturbed with none | elsewhere
      · exact Or.inl ((pending_renderComposer app).trans none)
      · exact absurd isScreen elsewhere
    | mail | other => exact alone.of_same rfl (Or.inr rfl) (Or.inl rfl)
  | navigate screen => exact alone.of_same rfl (Or.inr rfl) (Or.inr rfl)
  | compose => exact alone.of_same rfl (Or.inl rfl) (Or.inr rfl)
  | reply text => exact Or.inl undisturbed
  | edit text =>
    simp only [Sending.step]
    split
    next => exact alone
    next => exact alone.of_same rfl (Or.inr rfl) (Or.inr rfl)
  | submit refused =>
    cases refused with
    | true => exact alone
    | false => exact alone.submit undisturbed
  | discard =>
    simp only [Sending.step]
    split
    next => exact alone.of_same rfl (Or.inl rfl) (Or.inr rfl)
    next => exact alone
  | answer index outcome => exact alone.answer index outcome

theorem Alone.belongs (alone : Alone app) : Belongs app := by
  constructor
  · rcases alone with none | ⟨send, isPending, _⟩
    · rw [none]
      exact List.nodup_nil
    · rw [isPending]
      exact List.pairwise_singleton _ _
  · intro index outcome send isSend draft differs
    have isPending : app.pending = [send] := by
      rcases alone with none | ⟨other, isPending, _⟩
      · rw [none] at isSend
        cases isSend
      · rw [isPending] at isSend ⊢
        cases index with
        | zero => rw [Option.some.inj isSend]
        | succ later => cases isSend
    unfold Sending.answer
    rw [isSend]
    cases outcome with
    | error => exact ⟨id, rfl⟩
    | ok | stale =>
      refine ⟨fun isDraft => ?_, rfl⟩
      rcases (alone.of_pending isPending).1 with none | same
      · rw [none] at isDraft
        cases isDraft
      · rw [same, Option.some.injEq] at isDraft
        exact absurd isDraft.symm differs

theorem sends_belong_to_drafts (events : List Event)
    (undisturbed : MeetsAll step Undisturbed start events) :
    Belongs (runAll step start events) := by
  have alone : Alone (runAll step start events) :=
    invariant_of_meetsAll (fun _ _ alone undisturbed => alone.step undisturbed) events start
      (Or.inl rfl) undisturbed
  exact alone.belongs

/-- A message is written, sent, and the user goes back to the mail meanwhile. -/
def sentInPeace : List Event :=
  [.compose, .repaint, .edit "Hi".toList, .submit false, .navigate .mail, .repaint, .answer 0 .ok]

theorem belongs_sentInPeace : Belongs (runAll step start sentInPeace) := by
  refine sends_belong_to_drafts sentInPeace ⟨trivial, Or.inl rfl, trivial, ?_, trivial, ?_, trivial,
    trivial⟩
  · intro form isForm
    exact Or.inr (Option.some.inj isForm ▸ rfl)
  · exact Or.inr (by decide)

/-- A repaint gives the form a new closure, which sends the draft again. -/
def sentTwice : List Event := [.compose, .repaint, .submit false, .repaint, .submit false]

/-- A reply is begun while the message is sent, and is lost when the answer comes. -/
def replyMeanwhile : List Event :=
  [.compose, .repaint, .submit false, .reply "> Hello".toList, .repaint,
   .edit "Yes\n> Hello".toList]

theorem repaint_sends_twice :
    ¬ ((runAll step start sentTwice).pending.map (·.draft)).Nodup ∧
      ¬ SparesOthers (runAll step start replyMeanwhile) 0 .ok := by
  refine ⟨by decide, fun spares => ?_⟩
  have kept := (spares ⟨0, 0⟩ (by decide) 1 (by decide)).1 (by decide)
  exact absurd kept (by decide)

end Eeemail.Desktop.Sending
