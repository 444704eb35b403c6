import Eeemail.BlobFiles

/-! # Passes over the blobdir

What `migrate` has done to every file when it returns, and from that what
`enable` and `disable` leave behind: a file that carries the mark of a
temporary in its name, or that cannot be read, decrypted, written or replaced,
stays as it was. -/

set_option autoImplicit false

namespace Eeemail.BlobPasses

open Lib.Texts Lib.Actions Lib.Interrupts Blobs BlobFiles

variable {name : Name}

section

variable [Aead] {chance : Chance} {faults : Faults} {key : Key} {encrypt : Bool}
  {process after : Process Account} {count : Nat} {data : Bytes}

def passed (chance : Chance) (faults : Faults) (key : Key) (encrypt : Bool) (name : Name)
    (data : Bytes) : Bytes :=
  if contains tempMark name then data
  else
    (conversion chance faults name (migratedData key encrypt (chance.nonce name)) data).getD data

structure Swept (chance : Chance) (faults : Faults) (key : Key) (encrypt : Bool)
    (names : List Name) (before after : Account) : Prop where
  settings : after = { before with blobdir := after.blobdir }
  file : ∀ name data, before.blobdir.lookup name = some data →
    (∀ other ∈ names, tempBeside chance other ≠ name) →
    after.blobdir.lookup name =
      some (if name ∈ names then passed chance faults key encrypt name data else data)

theorem swept_of_migrateFiles {names : List Name} (distinct : names.Nodup)
    (went : (migrateFiles chance faults key encrypt names).run process = .ok count after) :
    Swept chance faults key encrypt names process.state after.state := by
  induction names generalizing process count with
  | nil =>
    obtain ⟨_, rfl⟩ := pure_eq_ok.mp went
    exact ⟨rfl, fun name data found _ => by rw [found, if_neg List.not_mem_nil]⟩
  | cons first rest ih =>
    obtain ⟨isNew, distinct⟩ := List.nodup_cons.mp distinct
    unfold migrateFiles at went
    split at went
    next marked =>
      have swept := ih distinct went
      refine ⟨swept.settings, fun name data found unused => ?_⟩
      rw [swept.file name data found fun other member =>
        unused other (List.mem_cons_of_mem _ member)]
      by_cases isFirst : name = first
      · subst isFirst
        simp [isNew, passed, marked]
      · simp [isFirst]
    next unmarked =>
      obtain ⟨result, middle, converted, remaining⟩ := bind_eq_ok.mp went
      obtain ⟨more, last, others, counted⟩ := bind_eq_ok.mp remaining
      obtain ⟨_, rfl⟩ := pure_eq_ok.mp counted
      have through := through_of_attempt converted
      have swept := ih distinct others
      refine ⟨?_, fun name data found unused => ?_⟩
      · rw [swept.settings, through.settings]
      · have unusedRest : ∀ other ∈ rest, tempBeside chance other ≠ name :=
          fun other member => unused other (List.mem_cons_of_mem _ member)
        by_cases isFirst : name = first
        · subst isFirst
          rw [swept.file name _ (through.file data found) unusedRest, if_neg isNew,
            if_pos List.mem_cons_self, passed, if_neg unmarked]
        · have same : middle.state.blobdir.lookup name = some data := by
            rw [through.others name isFirst (unused first List.mem_cons_self).symm, found]
          rw [swept.file name data same unusedRest]
          simp [isFirst]

omit [Aead] in
theorem mem_keys_of_lookup {dir : Dir} (found : dir.lookup name = some data) : name ∈ dir.keys := by
  rw [← AList.mem_keys, ← AList.lookup_isSome, found]
  rfl

def Unused (chance : Chance) (account : Account) : Prop :=
  ∀ name ∈ account.blobdir.keys, tempBeside chance name ∉ account.blobdir.keys

omit [Aead] in
theorem Unused.avoids {account : Account}
    (unused : Unused chance account) (found : account.blobdir.lookup name = some data) :
    ∀ other ∈ account.blobdir.keys, tempBeside chance other ≠ name :=
  fun other isOther same => unused other isOther (same ▸ mem_keys_of_lookup found)

def passedWith (chance : Chance) (faults : Faults) (key : Option Key) (encrypt : Bool)
    (name : Name) (data : Bytes) : Bytes :=
  match key with
  | some key => passed chance faults key encrypt name data
  | none => data

theorem lookup_of_migrate (went : (migrate chance faults encrypt).run process = .ok count after) :
    after.state = { process.state with blobdir := after.state.blobdir } ∧
      ∀ name data, process.state.blobdir.lookup name = some data →
        (∀ other ∈ process.state.blobdir.keys, tempBeside chance other ≠ name) →
        after.state.blobdir.lookup name =
          some (passedWith chance faults process.state.key encrypt name data) := by
  unfold migrate at went
  obtain ⟨key, isKey, went⟩ := inspect_bind_eq_ok.mp went
  cases isKey
  cases known : process.state.key with
  | none =>
    rw [known] at went
    obtain ⟨_, rfl⟩ := pure_eq_ok.mp went
    exact ⟨rfl, fun name data found _ => found⟩
  | some key =>
    rw [known] at went
    obtain ⟨names, isNames, went⟩ := inspect_bind_eq_ok.mp went
    cases isNames
    have swept := swept_of_migrateFiles process.state.blobdir.keys_nodup went
    refine ⟨swept.settings, fun name data found avoided => ?_⟩
    rw [swept.file name data found avoided, if_pos (mem_keys_of_lookup found)]
    rfl

/-! ## What is left behind -/

structure Rewritable (chance : Chance) (faults : Faults) (name : Name) : Prop where
  unmarked : contains tempMark name = false
  readable : faults.read name = false
  writable : faults.write (tempBeside chance name) = false
  replaceable : faults.rename name = false

def Opens (key : Option Key) (data : Bytes) : Prop :=
  ∃ held plaintext, key = some held ∧ openBlob held data = .ok plaintext ∧
    isEncrypted plaintext = false

omit [Aead] in
theorem conversion_eq_of_rewritable (rewritable : Rewritable chance faults name)
    (f : Bytes → Except Text (Option Bytes)) {out : Option Bytes}
    (changed : f data = .ok out) : conversion chance faults name f data = out := by
  simp [conversion, rewritable.readable, rewritable.writable, rewritable.replaceable, changed]

theorem passed_eq_of_not_rewritable (stuck : ¬Rewritable chance faults name)
    (data : Bytes) : passed chance faults key encrypt name data = data := by
  unfold passed conversion
  split
  · rfl
  next unmarked =>
    split
    · rfl
    next working =>
      simp only [Bool.or_eq_true, not_or, Bool.not_eq_true] at working unmarked
      exact absurd ⟨unmarked, working.1.1, working.1.2, working.2⟩ stuck

theorem passed_eq_of_rewritable (rewritable : Rewritable chance faults name) {out : Option Bytes}
    (changed : migratedData key encrypt (chance.nonce name) data = .ok out) :
    passed chance faults key encrypt name data = out.getD data := by
  rw [passed, if_neg (by simp [rewritable.unmarked]),
    conversion_eq_of_rewritable rewritable _ changed]

theorem isEncrypted_passed_true (name : Name) (data : Bytes) :
    isEncrypted (passed chance faults key true name data) = true ↔
      (isEncrypted data = false → Rewritable chance faults name) := by
  by_cases rewritable : Rewritable chance faults name
  · refine ⟨fun _ _ => rewritable, fun _ => ?_⟩
    cases clear : isEncrypted data with
    | true =>
      have same : migratedData key true (chance.nonce name) data = .ok none := by
        simp [migratedData, clear]
      rw [passed_eq_of_rewritable rewritable same]
      exact clear
    | false =>
      have sealed : migratedData key true (chance.nonce name) data =
          .ok (some (sealBlob key (chance.nonce name) data)) := by simp [migratedData, clear]
      rw [passed_eq_of_rewritable rewritable sealed]
      exact isEncrypted_sealBlob _ _ _
  · rw [passed_eq_of_not_rewritable rewritable]
    cases isEncrypted data with
    | true => simp
    | false => simpa using rewritable

theorem isEncrypted_passed_false (name : Name) (data : Bytes) :
    isEncrypted (passed chance faults key false name data) = false ↔
      (isEncrypted data = true → Rewritable chance faults name ∧ Opens (some key) data) := by
  by_cases rewritable : Rewritable chance faults name
  · simp only [rewritable, true_and]
    cases encrypted : isEncrypted data with
    | false =>
      have same : migratedData key false (chance.nonce name) data = .ok none := by
        simp [migratedData, encrypted]
      rw [passed_eq_of_rewritable rewritable same]
      simp [encrypted]
    | true =>
      cases opened : openBlob key data with
      | error e =>
        have refused : passed chance faults key false name data = data := by
          simp [passed, conversion, migratedData, encrypted, opened]
        simp [refused, encrypted, Opens, opened]
      | ok plaintext =>
        have changed : migratedData key false (chance.nonce name) data =
            .ok (some plaintext) := by simp [migratedData, encrypted, opened]
        rw [passed_eq_of_rewritable rewritable changed]
        simp [Opens, opened]
  · rw [passed_eq_of_not_rewritable rewritable]
    simp [rewritable]

/-! ## Turning encryption off and on -/

variable {account : Account} {left : Nat}

theorem lookup_of_disable (unused : Unused chance account)
    (went : (disable chance faults).run ⟨account, left⟩ = .ok count after) :
    after.state.key = none ∧
      ∀ name data, account.blobdir.lookup name = some data →
        after.state.blobdir.lookup name =
          some (passedWith chance faults account.key false name data) := by
  unfold disable at went
  obtain ⟨_, _, off, went⟩ := bind_eq_ok.mp went
  obtain ⟨_, _, _, written, rfl⟩ := atomic_eq_ok.mp off
  cases written
  obtain ⟨_, middle, swept, went⟩ := bind_eq_ok.mp went
  obtain ⟨_, _, dropped, went⟩ := bind_eq_ok.mp went
  obtain ⟨_, _, _, written, rfl⟩ := atomic_eq_ok.mp dropped
  cases written
  obtain ⟨_, rfl⟩ := pure_eq_ok.mp went
  exact ⟨rfl, fun name data found => (lookup_of_migrate swept).2 name data found
    (unused.avoids found)⟩

omit [Aead] in
theorem ensureKey_eq_ok {found : Key} (went : (ensureKey chance).run process = .ok found after) :
    after.state = { process.state with key := some found } := by
  unfold ensureKey at went
  obtain ⟨key, isKey, went⟩ := inspect_bind_eq_ok.mp went
  cases isKey
  cases known : process.state.key with
  | some key =>
    rw [known] at went
    obtain ⟨rfl, rfl⟩ := pure_eq_ok.mp went
    rw [← known]
  | none =>
    rw [known] at went
    obtain ⟨_, _, made, went⟩ := bind_eq_ok.mp went
    obtain ⟨_, _, _, written, rfl⟩ := atomic_eq_ok.mp made
    cases written
    obtain ⟨rfl, rfl⟩ := pure_eq_ok.mp went
    rfl

theorem lookup_of_enable (unused : Unused chance account)
    (went : (enable chance faults).run ⟨account, left⟩ = .ok count after) :
    ∃ key, after.state.key = some key ∧ after.state.blobEncryption = true ∧
      ∀ name data, account.blobdir.lookup name = some data →
        after.state.blobdir.lookup name =
          some (passed chance faults key true name data) := by
  unfold enable at went
  obtain ⟨encrypted, isEncrypted, went⟩ := inspect_bind_eq_ok.mp went
  cases isEncrypted
  split at went
  next =>
    obtain ⟨key, _, made, went⟩ := bind_eq_ok.mp went
    have hasKey := ensureKey_eq_ok made
    obtain ⟨_, _, on, went⟩ := bind_eq_ok.mp went
    obtain ⟨_, _, _, written, rfl⟩ := atomic_eq_ok.mp on
    cases written
    rw [hasKey] at went
    obtain ⟨settings, files⟩ := lookup_of_migrate went
    exact ⟨key, by rw [settings], by rw [settings], fun name data found =>
      files name data found (unused.avoids found)⟩
  next =>
    obtain ⟨failed, _⟩ := inspect_eq_ok.mp went
    cases failed

def SealedIn (account : Account) (name : Name) : Prop :=
  ∃ data, account.blobdir.lookup name = some data ∧ isEncrypted data = true

omit [Aead] in
theorem sealedIn_iff (found : account.blobdir.lookup name = some data) :
    SealedIn account name ↔ isEncrypted data = true := by
  constructor
  · rintro ⟨other, isOther, encrypted⟩
    cases found.symm.trans isOther
    exact encrypted
  · exact fun encrypted => ⟨data, found, encrypted⟩

/-- What the two passes promise about the files that messages refer to, and when
they keep it: `disable` has dropped the key with every file in the clear exactly
if each encrypted one could be rewritten and opened, and `enable` has encrypted
all exactly if each one in the clear could be rewritten. -/
theorem passes_complete_iff (unused : Unused chance account) (references : List Name)
    (stored : ∀ name ∈ references, name ∈ account.blobdir) :
    (∀ count after, (disable chance faults).run ⟨account, left⟩ = .ok count after →
        after.state.key = none ∧
        ((∀ name ∈ references, ¬SealedIn after.state name) ↔
          ∀ name ∈ references, ∀ data, account.blobdir.lookup name = some data →
            isEncrypted data = true → Rewritable chance faults name ∧ Opens account.key data)) ∧
      ∀ count after, (enable chance faults).run ⟨account, left⟩ = .ok count after →
        ((∀ name ∈ references, SealedIn after.state name) ↔
          ∀ name ∈ references, ∀ data, account.blobdir.lookup name = some data →
            isEncrypted data = false → Rewritable chance faults name) := by
  have isFile : ∀ name ∈ references, ∃ data, account.blobdir.lookup name = some data :=
    fun name member => Option.isSome_iff_exists.mp (AList.lookup_isSome.mpr (stored name member))
  constructor
  · intro count after went
    obtain ⟨dropped, files⟩ := lookup_of_disable unused went
    refine ⟨dropped, forall₂_congr fun name member => ?_⟩
    obtain ⟨data, found⟩ := isFile name member
    rw [sealedIn_iff (files name data found), Bool.not_eq_true]
    simp only [found, Option.some.injEq, forall_eq']
    cases held : account.key with
    | some key => exact isEncrypted_passed_false name data
    | none => simp [passedWith, Opens]
  · intro count after went
    obtain ⟨key, _, _, files⟩ := lookup_of_enable unused went
    refine forall₂_congr fun name member => ?_
    obtain ⟨data, found⟩ := isFile name member
    rw [sealedIn_iff (files name data found)]
    simp only [found, Option.some.injEq, forall_eq']
    exact isEncrypted_passed_true name data

end

section

local instance : Aead := transparentCipher

local instance : Digest := hexDigest

local instance : Sanitizer := plainNames

local instance : Unicode := asciiTables

def someKey : Key := ⟨List.replicate 32 0, by decide⟩

def someNonce : Nonce := ⟨List.replicate 24 0, by decide⟩

def someChance : Chance :=
  { newKey := someKey, nonce := fun _ => someNonce, temp := fun _ => 7, storeTemp := 3 }

def vault : Account := { encrypted := true, blobEncryption := true, key := some someKey }

def storedIn (account : Account) (original : Text) : Account :=
  (stateAfter (createAndDeduplicateFromBytes someChance {} [104, 105] original)
    ⟨account, 10⟩).state

def turnedOff (account : Account) : Account :=
  (stateAfter (disable someChance {}) ⟨account, 10⟩).state

theorem turnedOff_eq (account : Account) :
    (stateAfter (disable someChance {}) ⟨account, 10⟩).state = turnedOff account := rfl

def photo : Name := "6869.jpg".toList

theorem disable_unseals_photo :
    SealedIn (storedIn vault "a.jpg".toList) photo ∧
      (turnedOff (storedIn vault "a.jpg".toList)).key = none ∧
      ∀ name ∈ [photo], ¬SealedIn (turnedOff (storedIn vault "a.jpg".toList)) name := by
  have found : (storedIn vault "a.jpg".toList).blobdir.lookup photo =
      some (sealBlob someKey someNonce [104, 105]) := by decide +kernel
  have went : (disable someChance {}).run ⟨storedIn vault "a.jpg".toList, 10⟩ =
      .ok 1 (stateAfter (disable someChance {}) ⟨storedIn vault "a.jpg".toList, 10⟩) :=
    run_of_returns (by decide +kernel)
  have unused : Unused someChance (storedIn vault "a.jpg".toList) := by
    unfold Unused
    decide +kernel
  have stored : ∀ name ∈ [photo], name ∈ (storedIn vault "a.jpg".toList).blobdir := by
    intro name member
    rw [List.mem_singleton.mp member, ← AList.lookup_isSome, found]
    rfl
  obtain ⟨dropped, iff⟩ := (passes_complete_iff unused [photo] stored).1 _ _ went
  rw [turnedOff_eq] at dropped iff
  refine ⟨⟨_, found, isEncrypted_sealBlob _ _ _⟩, dropped, iff.mpr ?_⟩
  intro name member data isData _
  rw [List.mem_singleton.mp member] at isData ⊢
  cases found.symm.trans isData
  exact ⟨⟨by decide +kernel, rfl, rfl, rfl⟩, someKey, _, by decide +kernel,
    openBlob_sealBlob _ _ _, by decide⟩

/-- An attachment named `a.tmp-1` becomes a blob that `disable` passes over: the
key is dropped and the blob is lost. -/
theorem marked_blob_stays_sealed :
    returns (createAndDeduplicateFromBytes someChance {} [104, 105] "a.tmp-1".toList)
        ⟨vault, 10⟩ "6869.tmp-1".toList = true ∧
      readBlob "6869.tmp-1".toList (storedIn vault "a.tmp-1".toList) = .ok [104, 105] ∧
      returns (disable someChance {}) ⟨storedIn vault "a.tmp-1".toList, 10⟩ 0 = true ∧
      (turnedOff (storedIn vault "a.tmp-1".toList)).key = none ∧
      SealedIn (turnedOff (storedIn vault "a.tmp-1".toList)) "6869.tmp-1".toList := by
  have found : (turnedOff (storedIn vault "a.tmp-1".toList)).blobdir.lookup
      "6869.tmp-1".toList = some (sealBlob someKey someNonce [104, 105]) := by decide +kernel
  exact ⟨by decide +kernel, by decide +kernel, by decide +kernel, by decide +kernel,
    ⟨_, found, isEncrypted_sealBlob _ _ _⟩⟩

end

/-! ## Invariants of accounts -/

section Guarding

variable {chance : Chance} {faults : Faults} {Inv : Account → Prop}

theorem guards_setKey {key : Option Key}
    (kept : ∀ account, Inv account → Inv { account with key }) :
    Guards Inv (setKey key) := by
  refine Guards.atomic fun account _ after good written => ?_
  cases written
  exact kept account good

theorem guards_setBlobEncryption {value : Bool}
    (kept : ∀ account, Inv account → Inv { account with blobEncryption := value }) :
    Guards Inv (setBlobEncryption value) := by
  refine Guards.atomic fun account _ after good written => ?_
  cases written
  exact kept account good

theorem guards_ensureKey (made : ∀ account, Inv account → account.key = none →
      Inv { account with key := some chance.newKey }) : Guards Inv (ensureKey chance) := by
  refine Guards.bind_of_ok (Guards.inspect _) fun process known _ good asked _ => ?_
  obtain ⟨isKey, rfl⟩ := inspect_eq_ok.mp asked
  cases isKey
  cases known : process.state.key with
  | some key => exact good
  | none =>
    refine Guards.after_atomic good (fun _ _ written => ?_) fun _ => Guards.pure _
    cases written
    exact made _ good known

variable [Aead]

theorem guards_protect (keyed : Guards Inv (ensureKey chance))
    (converted : ∀ key process, process.state.key = some key → Inv process.state →
      Inv (stateAfter (convert chance faults name (protectedData key (chance.nonce name)))
        process).state) :
    Guards Inv (protect chance faults name) := by
  refine Guards.bind (Guards.inspect _) fun enabled => ?_
  cases enabled with
  | false => exact Guards.pure ()
  | true =>
    refine Guards.bind_of_ok keyed fun process key after _ made good => ?_
    have hasKey : after.state.key = some key := by rw [ensureKey_eq_ok made]
    exact converted key after hasKey good

theorem guards_migrate {encrypt : Bool}
    (converted : ∀ key name process, process.state.key = some key → Inv process.state →
      Inv (stateAfter (convert chance faults name (migratedData key encrypt (chance.nonce name)))
        process).state) :
    Guards Inv (migrate chance faults encrypt) := by
  refine Guards.bind_of_ok (Guards.inspect _) fun process known _ good asked _ => ?_
  obtain ⟨isKey, rfl⟩ := inspect_eq_ok.mp asked
  cases isKey
  cases known : process.state.key with
  | none => exact good
  | some key =>
    -- The key stays the one the pass began with.
    have files : ∀ names, Guards (fun account => account.key = some key ∧ Inv account)
        (migrateFiles chance faults key encrypt names) := by
      intro names
      induction names with
      | nil => exact Guards.pure 0
      | cons first rest ih =>
        rw [migrateFiles]
        split
        · exact ih
        · refine Guards.bind (Guards.attempt ?_) fun _ => Guards.bind ih fun _ => Guards.pure _
          intro process good
          have keeps : Guards (fun account => account.key = some key) (convert chance faults first
              (migratedData key encrypt (chance.nonce first))) :=
            guards_convert (fun _ _ _ hasKey _ _ => hasKey) fun _ _ _ hasKey _ _ => hasKey
          exact ⟨keeps process good.1, converted key first process good.1 good.2⟩
    exact (Guards.bind (Guards.inspect _) files process ⟨known, good⟩).2

end Guarding

end Eeemail.BlobPasses
