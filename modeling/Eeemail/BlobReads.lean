import Eeemail.BlobPasses
import Eeemail.Lib.Runs

/-! # Blobs read back as they were stored

Through any run of `protect`, `enable` and `disable`, killed wherever, a blob
reads as the bytes it was made from: if these do not look encrypted themselves,
and if the extension they came with does not look like that of a temporary. -/

set_option autoImplicit false

namespace Eeemail.BlobReads

open Lib.Texts Lib.Actions Lib.Interrupts Lib.Runs Blobs BlobFiles BlobPasses

/-! ## Names -/

section Names

variable {mark : Char} {marks s t : Text}

theorem contains_append_of_free (free : mark ∉ s) :
    contains (mark :: marks) (s ++ t) = contains (mark :: marks) t := by
  induction s with
  | nil => rfl
  | cons c rest ih =>
    obtain ⟨different, free⟩ := not_or.mp (List.mem_cons.not.mp free)
    have notHere : (mark :: marks).isPrefixOf (c :: (rest ++ t)) = false := by
      simp [List.isPrefixOf, different]
    have further := ih free
    unfold contains at further ⊢
    rw [List.cons_append, List.tails_cons, List.any_cons, notHere, further, Bool.false_or]

theorem contains_tempBeside (chance : Chance) (name : Name) :
    contains tempMark (tempBeside chance name) = true :=
  contains_iff.mpr ⟨name, _, rfl⟩

theorem tempBeside_ne_of_unmarked {name : Name} (unmarked : contains tempMark name = false)
    (chance : Chance) (other : Name) : tempBeside chance other ≠ name := by
  rintro rfl
  rw [contains_tempBeside] at unmarked
  cases unmarked

variable [Unicode] [Sanitizer]

def markedExtension (original : Text) : Bool :=
  (blobExtension original).any fun ext => contains tempMark ('.' :: ext)

theorem contains_blobName [Digest] (data : Bytes) (original : Text) :
    contains tempMark (blobName data original) = markedExtension original := by
  have free : '.' ∉ Digest.hex data := by
    intro member
    have isDigit := Digest.isHex_of_mem member
    revert isDigit
    decide
  have isMark : tempMark = '.' :: "tmp-".toList := rfl
  unfold blobName markedExtension
  cases blobExtension original with
  | some ext =>
    rw [isMark]
    exact contains_append_of_free free
  | none =>
    have rest : contains ('.' :: "tmp-".toList) (Digest.hex data ++ []) =
        contains ('.' :: "tmp-".toList) [] := contains_append_of_free free
    rw [List.append_nil] at rest
    rw [isMark, rest]
    rfl

end Names

/-! ## The invariant -/

section

variable [Aead] {chance : Chance} {name : Name} {plaintext : Bytes}
  {process after : Process Account}

def Holds (name : Name) (plaintext : Bytes) (account : Account) : Prop :=
  ∃ data, account.blobdir.lookup name = some data ∧ Form account.key plaintext data

theorem read_of_holds {account : Account} (clear : isEncrypted plaintext = false)
    (holds : Holds name plaintext account) : readBlob name account = .ok plaintext := by
  obtain ⟨data, found, form⟩ := holds
  simp only [readBlob, contents, found]
  exact decode_of_form clear form

def HoldsUnder (key : Key) (name : Name) (plaintext : Bytes) (account : Account) : Prop :=
  account.key = some key ∧ Holds name plaintext account

theorem guards_convert_holds {key : Key} {other : Name} {f : Bytes → Except Text (Option Bytes)}
    (unmarked : contains tempMark name = false)
    (good : ∀ data out, Form (some key) plaintext data → f data = .ok (some out) →
      Form (some key) plaintext out) :
    Guards (HoldsUnder key name plaintext) (convert chance {} other f) := by
  have apart := tempBeside_ne_of_unmarked unmarked chance other
  refine guards_convert ?_ ?_
  · rintro account _ out ⟨hasKey, data, found, form⟩ _ _
    exact ⟨hasKey, data, (lookup_withTemp apart.symm out account).trans found, form⟩
  · rintro account known out ⟨hasKey, data, found, form⟩ isKnown changed
    refine ⟨hasKey, ?_⟩
    by_cases same : name = other
    · subst same
      obtain rfl : data = known := Option.some.inj (found.symm.trans isKnown)
      refine ⟨out, lookup_withFile_self out account, ?_⟩
      have hasKey' : (withFile chance name out account).key = some key := hasKey
      rw [hasKey']
      exact good data out (hasKey ▸ form) changed
    · exact ⟨data, (lookup_withFile same apart.symm out account).trans found, form⟩

theorem holds_ensureKey : Guards (Holds name plaintext) (ensureKey chance) := by
  refine guards_ensureKey fun account holds isNew => ?_
  obtain ⟨data, found, form⟩ := holds
  refine ⟨data, found, form.imp_right ?_⟩
  rintro ⟨_, _, hasKey, _⟩
  cases isNew.symm.trans hasKey

theorem holds_protect (unmarked : contains tempMark name = false) (other : Name) :
    Guards (Holds name plaintext) (protect chance {} other) :=
  guards_protect holds_ensureKey fun _ process hasKey holds =>
    (guards_convert_holds unmarked (fun _ _ form changed => form_of_protectedData form changed)
      process ⟨hasKey, holds⟩).2

variable (clear : isEncrypted plaintext = false) (unmarked : contains tempMark name = false)

include clear unmarked in
theorem holds_migrate (encrypt : Bool) :
    Guards (Holds name plaintext) (migrate chance {} encrypt) :=
  guards_migrate fun _ _ process hasKey holds =>
    (guards_convert_holds unmarked (fun _ _ form changed => form_of_migratedData clear form changed)
      process ⟨hasKey, holds⟩).2

include clear unmarked in
theorem guards_enable : Guards (Holds name plaintext) (enable chance {}) := by
  refine Guards.bind (Guards.inspect _) fun encrypted => ?_
  cases encrypted with
  | false =>
    rw [if_neg Bool.false_ne_true]
    exact Guards.inspect _
  | true =>
    exact Guards.bind holds_ensureKey fun _ =>
      Guards.bind (guards_setBlobEncryption fun _ holds => holds) fun _ =>
        holds_migrate clear unmarked true

theorem passedWith_of_form {key : Option Key} {data : Bytes} (clear : isEncrypted plaintext = false)
    (unmarked : contains tempMark name = false) (form : Form key plaintext data) :
    passedWith chance {} key false name data = plaintext := by
  have rewritable : Rewritable chance {} name := ⟨unmarked, rfl, rfl, rfl⟩
  cases key with
  | none =>
    rcases form with same | ⟨_, _, none', _⟩
    · exact same
    · cases none'
  | some key =>
    rcases form with rfl | ⟨held, nonce, same, rfl⟩
    · have same : migratedData key false (chance.nonce name) data = .ok none := by
        simp [migratedData, clear]
      exact passed_eq_of_rewritable rewritable same
    · cases same
      have opened : migratedData key false (chance.nonce name)
          (sealBlob key nonce plaintext) = .ok (some plaintext) := by
        simp [migratedData, isEncrypted_sealBlob, openBlob_sealBlob]
      exact passed_eq_of_rewritable rewritable opened

include clear unmarked in
theorem guards_disable : Guards (Holds name plaintext) (disable chance {}) := by
  refine Guards.bind (guards_setBlobEncryption fun _ holds => holds) fun _ => ?_
  refine Guards.bind_of_ok (holds_migrate clear unmarked false) ?_
  intro process count after holds went stillHolds
  -- The key is dropped only now, when the blob is in the clear.
  obtain ⟨data, found, form⟩ := holds
  have isClear : after.state.blobdir.lookup name = some plaintext := by
    rw [(lookup_of_migrate went).2 name data found fun other _ =>
      tempBeside_ne_of_unmarked unmarked chance other, passedWith_of_form clear unmarked form]
  refine Guards.after_atomic stillHolds (fun _ _ written => ?_) fun _ => Guards.pure _
  cases written
  exact ⟨plaintext, isClear, Or.inl rfl⟩

/-! ## Runs -/

inductive Call where
  | protect (name : Name)
  | enable
  | disable

/-- A call, what is drawn during it, and the steps it gets before it is killed. -/
structure Event where
  call : Call
  chance : Chance
  left : Nat

def performCall (chance : Chance) (faults : Faults) : Call → BlobAction Unit
  | .protect name => protect chance faults name
  | .enable => do
    let _ ← enable chance faults
    pure ()
  | .disable => do
    let _ ← disable chance faults
    pure ()

def Event.perform (event : Event) : BlobAction Unit := performCall event.chance {} event.call

def step (account : Account) (event : Event) : Account :=
  (stateAfter event.perform ⟨account, event.left⟩).state

include clear unmarked in
theorem holds_step (account : Account) (event : Event) (holds : Holds name plaintext account) :
    Holds name plaintext (step account event) := by
  obtain ⟨call, chance, left⟩ := event
  cases call with
  | protect other => exact holds_protect unmarked other ⟨account, left⟩ holds
  | enable =>
    exact Guards.bind (guards_enable clear unmarked) (fun _ => Guards.pure ()) ⟨account, left⟩
      holds
  | disable =>
    exact Guards.bind (guards_disable clear unmarked) (fun _ => Guards.pure ()) ⟨account, left⟩
      holds

theorem guards_protect_of_isEncrypted {data : Bytes} (encrypted : isEncrypted data = true) :
    Guards (fun account => account.blobdir.lookup name = some data) (protect chance {} name) := by
  refine guards_protect (guards_ensureKey fun _ found _ => found) fun key process _ found => ?_
  have nothing : ∀ (account : Account) known out, account.blobdir.lookup name = some data →
      account.blobdir.lookup name = some known →
      protectedData key (chance.nonce name) known ≠ .ok (some out) := by
    intro account known out found isKnown changed
    cases found.symm.trans isKnown
    simp [protectedData, encrypted] at changed
  exact guards_convert
    (fun account known out found isKnown changed =>
      absurd changed (nothing account known out found isKnown))
    (fun account known out found isKnown changed =>
      absurd changed (nothing account known out found isKnown)) process found

/-! ## Storing -/

variable [Digest] [Unicode] [Sanitizer] {account : Account} {left : Nat} {data : Bytes}
  {original : Text}

def moved (source target : Name) (data : Bytes) (account : Account) : Account :=
  { account with blobdir := renamed source target data account.blobdir }

omit [Aead] [Digest] [Unicode] [Sanitizer] in
theorem lookup_moved_self (source target : Name) :
    (moved source target data account).blobdir.lookup target = some data :=
  AList.lookup_insert _

theorem inside_eq_ok {faults : Faults} {source : Name}
    (stored : (createAndDeduplicate chance faults (.inside source) original).run process =
      .ok name after) :
    ∃ data placed result, process.state.blobdir.lookup source = some data ∧
      name = blobName data original ∧ placed.state = moved source name data process.state ∧
      (attempt (protect chance faults name)).run placed = .ok result after := by
  unfold createAndDeduplicate at stored
  obtain ⟨_, _, brought, hashing⟩ := bind_eq_ok.mp stored
  obtain ⟨rfl, rfl⟩ := pure_eq_ok.mp brought
  obtain ⟨data, isData, moving⟩ := inspect_bind_eq_ok.mp hashing
  obtain ⟨_, found⟩ := contents_eq_ok isData
  obtain ⟨_, placed, swapped, protecting⟩ := bind_eq_ok.mp moving
  obtain ⟨_, _, _, isMoved, rfl⟩ := atomic_eq_ok.mp swapped
  obtain ⟨result, _, guarded, returned⟩ := bind_eq_ok.mp protecting
  obtain ⟨rfl, rfl⟩ := pure_eq_ok.mp returned
  refine ⟨data, _, result, found, rfl, ?_, guarded⟩
  rw [found] at isMoved
  split at isMoved
  · cases isMoved
  · cases isMoved
    rfl

def staged (chance : Chance) (data : Bytes) (account : Account) : Account :=
  { account with blobdir := account.blobdir.insert (storeTempName chance) data }

theorem createFromBytes_eq_ok {faults : Faults}
    (stored : (createAndDeduplicateFromBytes chance faults data original).run ⟨account, left⟩ =
      .ok name after) :
    ∃ placed result, name = blobName data original ∧
      placed.state = moved (storeTempName chance) name data (staged chance data account) ∧
      (attempt (protect chance faults name)).run placed = .ok result after := by
  unfold createAndDeduplicateFromBytes at stored
  obtain ⟨_, _, writing, creating⟩ := bind_eq_ok.mp stored
  obtain ⟨_, _, _, written, rfl⟩ := atomic_eq_ok.mp writing
  split at written
  · cases written
  · cases written
    obtain ⟨found, placed, result, isFound, isName, isPlaced, guarded⟩ := inside_eq_ok creating
    rw [AList.lookup_insert] at isFound
    cases isFound
    exact ⟨placed, result, isName, isPlaced, guarded⟩

/-- A stored blob reads back for good if its bytes do not look encrypted and its
extension is not that of a temporary; bytes that look encrypted never do. -/
theorem blob_reads_back
    (stored : (createAndDeduplicateFromBytes chance {} data original).run ⟨account, left⟩ =
      .ok name after) :
    (isEncrypted data = false → markedExtension original = false →
        ∀ events, readBlob name (runAll step after.state events) = .ok data) ∧
      (isEncrypted data = true → readBlob name after.state ≠ .ok data) := by
  obtain ⟨placed, result, rfl, isMoved, went⟩ := createFromBytes_eq_ok stored
  have isPlaced : placed.state.blobdir.lookup (blobName data original) = some data := by
    rw [isMoved]
    exact lookup_moved_self _ _
  constructor
  · intro clear unmarkedExtension events
    have unmarked : contains tempMark (blobName data original) = false := by
      rw [contains_blobName, unmarkedExtension]
    have guards : Guards (Holds (blobName data original) data)
        (attempt (protect chance {} (blobName data original))) :=
      Guards.attempt (holds_protect unmarked _)
    have start : Holds (blobName data original) data after.state := by
      have kept := guards placed ⟨data, isPlaced, Or.inl rfl⟩
      rwa [stateAfter_of_ok went] at kept
    exact read_of_holds clear
      (invariant_of_step (holds_step clear unmarked) events after.state start)
  · intro encrypted
    have guards : Guards (fun account =>
      account.blobdir.lookup (blobName data original) = some data)
        (attempt (protect chance {} (blobName data original))) :=
      Guards.attempt (guards_protect_of_isEncrypted encrypted)
    have found := guards placed isPlaced
    rw [stateAfter_of_ok went] at found
    simp only [readBlob, contents, found]
    exact decode_ne_of_isEncrypted encrypted

end

section

local instance : Aead := transparentCipher

local instance : Digest := hexDigest

local instance : Sanitizer := plainNames

local instance : Unicode := asciiTables

theorem photo_reads_back :
    returns (createAndDeduplicateFromBytes someChance {} [104, 105] "a.jpg".toList)
        ⟨vault, 10⟩ photo = true ∧
      ∀ events, readBlob photo (runAll step (storedIn vault "a.jpg".toList) events) =
        .ok [104, 105] := by
  have returned : returns (createAndDeduplicateFromBytes someChance {} [104, 105] "a.jpg".toList)
      ⟨vault, 10⟩ photo = true := by decide +kernel
  exact ⟨returned, (blob_reads_back (run_of_returns returned)).1 (by decide) (by decide +kernel)⟩

def lookalike : Bytes := magic ++ List.replicate 24 0

/-- Where blob encryption was never on, a blob whose contents start with the magic
cannot be read; where it is on, one stored as `a.tmp-1` cannot be read once it was
turned off. -/
theorem lookalike_unreadable :
    returns (createAndDeduplicateFromBytes someChance {} lookalike "a.jpg".toList) ⟨{}, 10⟩
        (blobName lookalike "a.jpg".toList) = true ∧
      readBlob (blobName lookalike "a.jpg".toList)
          (stateAfter (createAndDeduplicateFromBytes someChance {} lookalike "a.jpg".toList)
            ⟨{}, 10⟩).state =
        .error "blob is encrypted but no key is available; unlock the database".toList ∧
      readBlob "6869.tmp-1".toList
          (runAll step (storedIn vault "a.tmp-1".toList) [⟨.disable, someChance, 10⟩]) =
        .error "blob is encrypted but no key is available; unlock the database".toList := by
  exact ⟨by decide +kernel, by decide +kernel, by decide +kernel⟩

end

end Eeemail.BlobReads
