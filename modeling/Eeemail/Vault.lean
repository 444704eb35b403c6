import Eeemail.BlobReads

/-! # The database passphrase

`core/src/email/vault.rs`.  `rewrite_under_key` exports the database to a copy,
closes it, removes its write-ahead log and renames the copy over it, while other
writers commit and the process can be killed anywhere.  `set_passphrase` decides
whether to rewrite, and asks nothing about the blobs. -/

set_option autoImplicit false

namespace Eeemail.Vault

open Lib.Texts Lib.Actions Lib.Interrupts Lib.Runs Blobs BlobFiles BlobPasses BlobReads

/-! ## Rewriting under a key -/

section Rewrite

variable {τ : Type}

structure Database (τ : Type) where
  encrypted : Bool
  log : List τ

inductive Phase where
  | idle
  | removed
  | copying
  | exported
  | closed
  | cleaned
  | replaced
  deriving DecidableEq, Repr

structure Machine (τ : Type) where
  dbfile : Database τ
  wal : List τ := []
  target : Option (Database τ) := none
  isOpen : Bool := true
  phase : Phase := .idle
  /-- The new passphrase is not empty. -/
  encrypts : Bool := false
  /-- The transactions that were reported committed. -/
  reported : List τ := []

/-- The transactions in the database that the next open finds. -/
def Machine.found (m : Machine τ) : List τ := m.dbfile.log ++ m.wal

inductive Happening (τ : Type) where
  | commit (t : τ)
  | checkpoint (frames : Nat)
  | rewrite (encrypts : Bool)
  | advance
  | fail
  | kill
  | reopen

def Machine.checkpointed (m : Machine τ) (frames : Nat) : Machine τ :=
  { m with
    dbfile := { m.dbfile with log := m.dbfile.log ++ m.wal.take frames }
    wal := m.wal.drop frames }

def Machine.advanced (m : Machine τ) : Machine τ :=
  match m.phase with
  | .idle => m
  | .removed =>
    if m.isOpen then
      { m with target := some { encrypted := m.encrypts, log := [] }, phase := .copying }
    else { m with phase := .idle }
  | .copying =>
    { m with target := some { encrypted := m.encrypts, log := m.found }, phase := .exported }
  -- The last connection to close moves the whole log to the file.
  | .exported => { m.checkpointed m.wal.length with isOpen := false, phase := .closed }
  | .closed => { m with wal := [], phase := .cleaned }
  | .cleaned =>
    match m.target with
    | some copy => { m with dbfile := copy, target := none, phase := .replaced }
    | none => { m with phase := .idle }
  | .replaced => { m with isOpen := true, phase := .idle }

def Machine.failed (m : Machine τ) : Machine τ :=
  match m.phase with
  | .removed | .copying | .cleaned | .replaced => { m with phase := .idle }
  | .idle | .exported | .closed => m

def happen (m : Machine τ) : Happening τ → Machine τ
  -- A writer waits for the export, and finds no connection once the pool is closed.
  | .commit t =>
    if m.isOpen && decide (m.phase ≠ .copying) then
      { m with wal := m.wal ++ [t], reported := m.reported ++ [t] }
    else m
  | .checkpoint frames => if m.isOpen then m.checkpointed frames else m
  | .rewrite encrypts =>
    if m.phase = .idle then { m with target := none, encrypts, phase := .removed } else m
  | .advance => m.advanced
  | .fail => m.failed
  | .kill => { m with isOpen := false, phase := .idle }
  | .reopen => if m.phase = .idle then { m with isOpen := true } else m

def Kept (m : Machine τ) : Prop := ∀ t ∈ m.reported, t ∈ m.found

def Phase.isShut : Phase → Bool
  | .closed | .cleaned | .replaced => true
  | _ => false

def Phase.hasCopy : Phase → Bool
  | .exported | .closed | .cleaned => true
  | _ => false

structure Sound (m : Machine τ) : Prop where
  kept : Kept m
  shut : m.phase.isShut = true → m.isOpen = false ∧ m.wal = []
  copied : m.phase.hasCopy = true → ∃ copy, m.target = some copy ∧ copy.log = m.found

variable {m : Machine τ}

theorem Sound.of_kept (kept : Kept m) (notShut : m.phase.isShut = false)
    (noCopy : m.phase.hasCopy = false) : Sound m := by
  refine ⟨kept, fun isShut => ?_, fun hasCopy => ?_⟩
  · cases notShut.symm.trans isShut
  · cases noCopy.symm.trans hasCopy

theorem found_checkpointed (m : Machine τ) (frames : Nat) :
    (m.checkpointed frames).found = m.found := by
  simp only [Machine.found, Machine.checkpointed, List.append_assoc, List.take_append_drop]

theorem wal_checkpointed (m : Machine τ) : (m.checkpointed m.wal.length).wal = [] := by
  simp [Machine.checkpointed]

theorem sound_advanced (sound : Sound m) : Sound m.advanced := by
  unfold Machine.advanced
  split
  next => exact sound
  next =>
    split
    · exact .of_kept sound.kept rfl rfl
    · exact .of_kept sound.kept rfl rfl
  next => exact ⟨sound.kept, fun isShut => (by cases isShut), fun _ => ⟨_, rfl, rfl⟩⟩
  next isExported =>
    obtain ⟨copy, isCopy, same⟩ := sound.copied (by rw [isExported]; rfl)
    have unchanged := found_checkpointed m m.wal.length
    refine ⟨fun t member => ?_, fun _ => ⟨rfl, wal_checkpointed m⟩, fun _ => ⟨copy, isCopy, ?_⟩⟩
    · exact unchanged ▸ sound.kept t member
    · exact same.trans unchanged.symm
  next isClosed =>
    obtain ⟨isShut, empty⟩ := sound.shut (by rw [isClosed]; rfl)
    obtain ⟨copy, isCopy, same⟩ := sound.copied (by rw [isClosed]; rfl)
    have unchanged : { m with wal := [], phase := .cleaned }.found = m.found := by
      simp only [Machine.found, empty]
    refine ⟨fun t member => ?_, fun _ => ⟨isShut, rfl⟩, fun _ => ⟨copy, isCopy, ?_⟩⟩
    · exact unchanged ▸ sound.kept t member
    · exact same.trans unchanged.symm
  next isCleaned =>
    obtain ⟨isShut, empty⟩ := sound.shut (by rw [isCleaned]; rfl)
    obtain ⟨copy, isCopy, same⟩ := sound.copied (by rw [isCleaned]; rfl)
    rw [isCopy]
    refine ⟨fun t member => ?_, fun _ => ⟨isShut, empty⟩, fun hasCopy => (by cases hasCopy)⟩
    have inCopy : t ∈ copy.log := same ▸ sound.kept t member
    exact List.mem_append_left _ inCopy
  next => exact .of_kept sound.kept rfl rfl

theorem sound_idle (sound : Sound m) (isOpen : Bool) :
    Sound { m with isOpen, phase := .idle } := .of_kept sound.kept rfl rfl

/-- No other writer commits between the export and the close. -/
def Quiet (m : Machine τ) : Happening τ → Prop
  | .commit _ => m.phase ≠ .exported
  | _ => True

theorem sound_commit (t : τ) (sound : Sound m) (isOpen : m.isOpen = true)
    (quiet : m.phase ≠ .exported) :
    Sound { m with wal := m.wal ++ [t], reported := m.reported ++ [t] } := by
  have notShut : m.phase.isShut = false := by
    by_contra isShut
    rw [(sound.shut (by simpa using isShut)).1] at isOpen
    cases isOpen
  refine .of_kept (fun other member => ?_) notShut ?_
  · change other ∈ m.dbfile.log ++ (m.wal ++ [t])
    rw [← List.append_assoc]
    rcases List.mem_append.mp member with old | new
    · exact List.mem_append_left _ (sound.kept other old)
    · exact List.mem_append_right _ new
  · -- A copy is complete before the pool is closed only once it is exported.
    change m.phase.hasCopy = false
    cases known : m.phase with
    | exported => exact absurd known quiet
    | closed => simp [known, Phase.isShut] at notShut
    | cleaned => simp [known, Phase.isShut] at notShut
    | idle => rfl
    | removed => rfl
    | copying => rfl
    | replaced => rfl

theorem sound_checkpoint (frames : Nat) (sound : Sound m)
    (isOpen : m.isOpen = true) : Sound (m.checkpointed frames) := by
  have unchanged := found_checkpointed m frames
  refine ⟨fun t member => unchanged ▸ sound.kept t member, fun isShut => ?_, fun hasCopy => ?_⟩
  · rw [(sound.shut isShut).1] at isOpen
    cases isOpen
  · obtain ⟨copy, isCopy, same⟩ := sound.copied hasCopy
    exact ⟨copy, isCopy, same.trans unchanged.symm⟩

theorem sound_failed (sound : Sound m) : Sound m.failed := by
  unfold Machine.failed
  split
  next => exact sound_idle sound m.isOpen
  next => exact sound_idle sound m.isOpen
  next => exact sound_idle sound m.isOpen
  next => exact sound_idle sound m.isOpen
  next => exact sound
  next => exact sound
  next => exact sound

theorem sound_happen (m : Machine τ) (event : Happening τ) (sound : Sound m)
    (quiet : Quiet m event) : Sound (happen m event) := by
  cases event with
  | commit t =>
    simp only [happen]
    split
    next accepted =>
      rw [Bool.and_eq_true] at accepted
      exact sound_commit t sound accepted.1 quiet
    next => exact sound
  | checkpoint frames =>
    simp only [happen]
    split
    next isOpen => exact sound_checkpoint frames sound isOpen
    next => exact sound
  | rewrite encrypts =>
    simp only [happen]
    split
    next => exact .of_kept sound.kept rfl rfl
    next => exact sound
  | advance => exact sound_advanced sound
  | fail => exact sound_failed sound
  | kill => exact sound_idle sound false
  | reopen =>
    simp only [happen]
    split
    next isIdle => exact .of_kept sound.kept (by rw [isIdle]; rfl) (by rw [isIdle]; rfl)
    next => exact sound

def Untouched (m : Machine τ) : Prop := m.phase = .idle ∧ Kept m

theorem sound_of_untouched (untouched : Untouched m) : Sound m := by
  obtain ⟨isIdle, kept⟩ := untouched
  exact .of_kept kept (by rw [isIdle]; rfl) (by rw [isIdle]; rfl)

/-- Nothing that was reported committed is lost if no other writer commits between
the export and the close; a commit there is lost unless the rewrite is cut short. -/
theorem committed_kept_if_quiet :
    (∀ (m : Machine τ) events, Untouched m → MeetsAll happen Quiet m events →
        Kept (runAll happen m events)) ∧
      ∀ (m : Machine τ) t, Sound m → m.phase = .exported → m.isOpen = true → t ∉ m.found →
        ¬Kept (runAll happen m [.commit t, .advance, .advance, .advance]) := by
  constructor
  · intro m events untouched quiet
    exact (invariant_of_meetsAll sound_happen events m (sound_of_untouched untouched) quiet).kept
  · intro m t sound isExported isOpen new kept
    obtain ⟨copy, isCopy, same⟩ := sound.copied (by rw [isExported]; rfl)
    have lost : t ∈ copy.log ++ [] := by
      have member := kept t
      simpa [runAll, happen, isOpen, isExported, Machine.advanced, Machine.checkpointed, isCopy,
        Machine.found] using member
    rw [List.append_nil, same] at lost
    exact new lost

def fresh : Machine Nat := { dbfile := { encrypted := false, log := [] } }

theorem commit_before_rewrite_kept :
    (runAll happen fresh [.commit 1, .rewrite true, .advance, .advance, .kill]).reported = [1] ∧
      Kept (runAll happen fresh [.commit 1, .rewrite true, .advance, .advance, .kill]) := by
  refine ⟨rfl, committed_kept_if_quiet.1 fresh _ ⟨rfl, fun t member => ?_⟩ ?_⟩
  · cases member
  · exact ⟨fun isExported => (by cases isExported), trivial, trivial, trivial, trivial, trivial⟩

def overtaken : Machine Nat :=
  runAll happen fresh
    ([.rewrite true, .advance, .advance, .commit 1] ++ List.replicate 4 .advance)

theorem commit_after_export_lost :
    overtaken.reported = [1] ∧ overtaken.found = [] ∧ overtaken.dbfile.encrypted = true ∧
      overtaken.phase = .idle := by
  decide

end Rewrite

/-! ## Setting a passphrase -/

section Passphrase

/-- The rewriting, as far as the settings go: its rename. -/
def rewriteUnderKey (passphrase : Text) : BlobAction Unit :=
  atomic fun account => .ok ((), { account with encrypted := !passphrase.isEmpty })

def changePassphrase : BlobAction Unit := atomic fun account => .ok ((), account)

def setPassphrase (passphrase : Text) : BlobAction Unit := do
  let encryptedNow ← inspect fun account => .ok account.encrypted
  match encryptedNow, !passphrase.isEmpty with
  | true, true => changePassphrase
  | false, false => pure ()
  | _, _ => rewriteUnderKey passphrase

def usesKey (account : Account) : Bool := account.blobEncryption || account.key.isSome

/-- The database is encrypted wherever the blobs rely on it. -/
def Covered (account : Account) : Prop := usesKey account = true → account.encrypted = true

/-! ### Frames -/

section Frames

variable [Aead] {chance : Chance} {faults : Faults} {Inv : Account → Prop}
  (blind : ∀ account dir, Inv account → Inv { account with blobdir := dir })

include blind

omit [Aead] in
theorem guards_convert_of_blind {name : Name} {f : Bytes → Except Text (Option Bytes)} :
    Guards Inv (convert chance faults name f) :=
  guards_convert (fun account _ _ good _ _ => blind account _ good)
    (fun account _ _ good _ _ => blind account _ good)

theorem guards_migrate_of_blind (encrypt : Bool) : Guards Inv (migrate chance faults encrypt) :=
  guards_migrate fun _ _ process _ => guards_convert_of_blind blind process

end Frames

theorem covered_of_encrypted {account : Account} (encrypted : account.encrypted = true) :
    Covered account := fun _ => encrypted

section

variable [Aead] {chance : Chance} {faults : Faults}

omit [Aead] in
theorem guards_ensureKey_encrypted :
    Guards (fun account => account.encrypted = true) (ensureKey chance) :=
  guards_ensureKey fun _ encrypted _ => encrypted

theorem covered_protect (name : Name) : Guards Covered (protect chance faults name) := by
  refine Guards.bind_of_ok (Guards.inspect _) fun process enabled _ covered asked _ => ?_
  obtain ⟨isEnabled, rfl⟩ := inspect_eq_ok.mp asked
  cases isEnabled
  cases known : process.state.blobEncryption with
  | false => exact covered
  | true =>
    have encrypted : process.state.encrypted = true := covered (by simp [usesKey, known])
    have guards : Guards (fun account => account.encrypted = true) (do
        let key ← ensureKey chance
        convert chance faults name (protectedData key (chance.nonce name))) :=
      Guards.bind guards_ensureKey_encrypted fun _ =>
        guards_convert_of_blind fun _ _ encrypted => encrypted
    exact covered_of_encrypted (guards process encrypted)

theorem covered_enable : Guards Covered (enable chance faults) := by
  refine Guards.bind_of_ok (Guards.inspect _) fun process encrypted _ covered asked _ => ?_
  obtain ⟨isEncrypted, rfl⟩ := inspect_eq_ok.mp asked
  cases isEncrypted
  cases known : process.state.encrypted with
  | false => exact covered
  | true =>
    have guards : Guards (fun account => account.encrypted = true) (do
        let _ ← ensureKey chance
        setBlobEncryption true
        migrate chance faults true) :=
      Guards.bind guards_ensureKey_encrypted fun _ =>
        Guards.bind (guards_setBlobEncryption fun _ encrypted => encrypted) fun _ =>
          guards_migrate_of_blind (fun _ _ encrypted => encrypted) true
    exact covered_of_encrypted (guards process known)

theorem covered_disable : Guards Covered (disable chance faults) := by
  have off : Guards Covered (setBlobEncryption false) :=
    guards_setBlobEncryption fun account covered uses => covered (by simp_all [usesKey])
  have dropped : Guards Covered (setKey none) :=
    guards_setKey fun account covered uses => covered (by simp_all [usesKey])
  exact Guards.bind off fun _ =>
    Guards.bind (guards_migrate_of_blind (fun _ _ covered => covered) false) fun _ =>
      Guards.bind dropped fun _ => Guards.pure _

/-! ### Runs -/

/-- What changes the protection of an account. -/
inductive VaultEvent where
  | setPassphrase (passphrase : Text) (left : Nat)
  | call (event : Event)

def vaultStep (account : Account) : VaultEvent → Account
  | .setPassphrase passphrase left =>
    (stateAfter (Vault.setPassphrase passphrase) ⟨account, left⟩).state
  | .call event => step account event

/-- A passphrase is taken away only where no blob key relies on it. -/
def Relinquishes (account : Account) : VaultEvent → Prop
  | .setPassphrase passphrase _ => passphrase = [] → usesKey account = false
  | .call _ => True

theorem vaultStep_setPassphrase (account : Account) (passphrase : Text) (left : Nat) :
    vaultStep account (.setPassphrase passphrase (left + 1)) =
      { account with encrypted := !passphrase.isEmpty } := by
  obtain ⟨encrypted, blobEncryption, key, blobdir⟩ := account
  cases encrypted with
  | false =>
    cases passphrase with
    | nil => rfl
    | cons c rest => rfl
  | true =>
    cases passphrase with
    | nil => rfl
    | cons c rest => rfl

theorem vaultStep_killed (account : Account) (passphrase : Text) :
    vaultStep account (.setPassphrase passphrase 0) = account := by
  obtain ⟨encrypted, blobEncryption, key, blobdir⟩ := account
  cases encrypted with
  | false =>
    cases passphrase with
    | nil => rfl
    | cons c rest => rfl
  | true =>
    cases passphrase with
    | nil => rfl
    | cons c rest => rfl

theorem covered_vaultStep (account : Account) (event : VaultEvent) (covered : Covered account)
    (relinquishes : Relinquishes account event) : Covered (vaultStep account event) := by
  cases event with
  | setPassphrase passphrase left =>
    cases left with
    | zero =>
      rw [vaultStep_killed]
      exact covered
    | succ left =>
      rw [vaultStep_setPassphrase]
      intro uses
      cases passphrase with
      | nil => cases (relinquishes rfl).symm.trans uses
      | cons c rest => rfl
  | call event =>
    obtain ⟨call, chance, left⟩ := event
    cases call with
    | protect name => exact covered_protect name ⟨account, left⟩ covered
    | enable =>
      exact Guards.bind covered_enable (fun _ => Guards.pure ()) ⟨account, left⟩ covered
    | disable =>
      exact Guards.bind covered_disable (fun _ => Guards.pure ()) ⟨account, left⟩ covered

/-- Blob encryption stays over an encrypted database exactly as long as no passphrase
is taken away while it is on or a blob key is stored. -/
theorem covered_if_relinquishes :
    (∀ account events, Covered account → MeetsAll vaultStep Relinquishes account events →
        Covered (runAll vaultStep account events)) ∧
      ∀ account passphrase left,
        (Covered (vaultStep account (.setPassphrase passphrase (left + 1))) ↔
          Relinquishes account (.setPassphrase passphrase (left + 1))) := by
  constructor
  · intro account events covered meets
    exact invariant_of_meetsAll covered_vaultStep events account covered meets
  · intro account passphrase left
    rw [vaultStep_setPassphrase]
    cases passphrase with
    | nil => simp [Covered, Relinquishes, usesKey]
    | cons c rest => simp [Covered, Relinquishes]

end

section

local instance : Aead := transparentCipher

def passphraseSet : VaultEvent := .setPassphrase "x".toList 1

def passphraseRemoved : VaultEvent := .setPassphrase [] 1

def blobsOn : VaultEvent := .call ⟨.enable, someChance, 10⟩

def blobsOff : VaultEvent := .call ⟨.disable, someChance, 10⟩

theorem covered_when_turned_off_first :
    usesKey (runAll vaultStep {} [passphraseSet, blobsOn]) = true ∧
      Covered (runAll vaultStep {} [passphraseSet, blobsOn, blobsOff, passphraseRemoved]) := by
  refine ⟨by decide +kernel, covered_if_relinquishes.1 {} _ (fun uses => by cases uses) ?_⟩
  exact ⟨fun empty => (by cases empty), trivial, trivial, fun _ => (by decide +kernel), trivial⟩

/-- The account once its passphrase was removed with blob encryption on. -/
def uncovered : Account := runAll vaultStep {} [passphraseSet, blobsOn, passphraseRemoved]

theorem passphrase_removed_under_blobs :
    uncovered.blobEncryption = true ∧ uncovered.key = some someKey ∧
      uncovered.encrypted = false := by
  decide +kernel

end

end Passphrase

end Eeemail.Vault
