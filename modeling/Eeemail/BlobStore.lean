import Eeemail.BlobReads

/-! # Storing a blob

A blob is made from bytes, from a file elsewhere, from a file of the blobdir or
from one in another account's blobdir.  It takes its name from the contents as
they lie on the disk, so a sealed source gets the name of its ciphertext, and one
of the account's own is renamed away. -/

set_option autoImplicit false

namespace Eeemail.BlobStore

open Lib.Texts Lib.Actions Lib.Interrupts Lib.Runs Blobs BlobFiles BlobPasses BlobReads

/-! ## Names after contents -/

def stem (name : Name) : Text := name.takeWhile (· != '.')

theorem stem_append_dot (name rest : Text) : stem (name ++ '.' :: rest) = stem name := by
  induction name with
  | nil => rfl
  | cons c name ih =>
    unfold stem at ih ⊢
    rw [List.cons_append, List.takeWhile_cons, List.takeWhile_cons, ih]

theorem stem_tempBeside (chance : Chance) (name : Name) :
    stem (tempBeside chance name) = stem name := by
  rw [tempBeside, List.append_assoc]
  exact stem_append_dot _ _

section Names

variable [Digest]

theorem stem_hex (data : Bytes) : stem (Digest.hex data) = Digest.hex data := by
  refine List.takeWhile_eq_self_iff.mpr fun c member => ?_
  have isDigit := Digest.isHex_of_mem member
  by_contra isDot
  rw [Bool.not_eq_true, bne_eq_false_iff_eq] at isDot
  subst isDot
  revert isDigit
  decide

theorem stem_blobName [Unicode] [Sanitizer] (data : Bytes) (original : Text) :
    stem (blobName data original) = Digest.hex data := by
  unfold blobName
  cases blobExtension original with
  | some ext => exact (stem_append_dot _ _).trans (stem_hex data)
  | none => exact stem_hex data

theorem eq_of_blobName_eq [Unicode] [Sanitizer] {first second : Bytes}
    {original other : Text}
    (same : blobName first original = blobName second other) : first = second := by
  apply Digest.hex_injective
  rw [← stem_blobName first original, same, stem_blobName]

theorem stem_storeTempName_ne (chance : Chance) (data : Bytes) :
    stem (storeTempName chance) ≠ Digest.hex data := by
  intro same
  have member : 't' ∈ Digest.hex data := by
    rw [← same]
    exact List.mem_cons_self
  have isDigit := Digest.isHex_of_mem member
  revert isDigit
  decide

end Names

/-! ## Files hold what they are named after -/

section Addressed

variable [Aead]

def Kept (plaintext content : Bytes) : Prop :=
  content = plaintext ∨ ∃ key nonce, content = sealBlob key nonce plaintext

variable {chance : Chance} {faults : Faults} {key : Key} {nonce : Nonce}
  {plaintext content out : Bytes}

theorem kept_of_protectedData (kept : Kept plaintext content)
    (changed : protectedData key nonce content = .ok (some out)) : Kept plaintext out := by
  unfold protectedData at changed
  split at changed
  · cases changed
  next clear =>
    cases changed
    rcases kept with rfl | ⟨other, drawn, rfl⟩
    · exact Or.inr ⟨key, nonce, rfl⟩
    · exact absurd (isEncrypted_sealBlob other drawn plaintext) clear

theorem eq_of_openBlob_sealBlob {other : Key}
    (opened : openBlob other (sealBlob key nonce plaintext) = .ok out) : out = plaintext := by
  by_cases same : key = other
  · subst same
    rw [openBlob_sealBlob] at opened
    cases opened
    rfl
  · exact absurd opened (openBlob_other same out)

theorem kept_of_migratedData {encrypt : Bool} (clear : isEncrypted plaintext = false)
    (kept : Kept plaintext content)
    (changed : migratedData key encrypt nonce content = .ok (some out)) : Kept plaintext out := by
  unfold migratedData at changed
  split at changed
  next isClear =>
    cases changed
    rcases kept with rfl | ⟨other, drawn, rfl⟩
    · exact Or.inr ⟨key, nonce, rfl⟩
    · rw [isEncrypted_sealBlob] at isClear
      cases isClear
  next isSealed =>
    rcases kept with rfl | ⟨other, drawn, rfl⟩
    · rw [clear] at isSealed
      cases isSealed
    · split at changed
      next opened =>
        cases changed
        exact Or.inl (eq_of_openBlob_sealBlob opened)
      next => cases changed
  next => cases changed

theorem eq_of_decode_of_kept {key : Option Key} (clear : isEncrypted plaintext = false)
    (kept : Kept plaintext content) (read : decode key content = .ok out) : out = plaintext := by
  unfold decode at read
  rcases kept with rfl | ⟨other, drawn, rfl⟩
  · rw [clear] at read
    cases read
    rfl
  · rw [if_pos (isEncrypted_sealBlob other drawn plaintext)] at read
    cases key with
    | none => cases read
    | some key => exact eq_of_openBlob_sealBlob read

variable [Digest]

/-- A file named after contents that do not look encrypted holds them. -/
def Addressed (dir : Dir) : Prop :=
  ∀ data name content, isEncrypted data = false → stem name = Digest.hex data →
    dir.lookup name = some content → Kept data content

theorem addressed_empty : Addressed ∅ := by
  intro data name content _ _ found
  rw [AList.lookup_empty] at found
  cases found

theorem addressed_insert {dir : Dir} {target : Name} (addressed : Addressed dir)
    (good : ∀ data, isEncrypted data = false → stem target = Digest.hex data → Kept data out) :
    Addressed (dir.insert target out) := by
  intro data name content clear named found
  by_cases isTarget : name = target
  · subst isTarget
    rw [AList.lookup_insert] at found
    cases found
    exact good data clear named
  · rw [AList.lookup_insert_ne isTarget] at found
    exact addressed data name content clear named found

theorem addressed_erase {dir : Dir} (addressed : Addressed dir) (gone : Name) :
    Addressed (dir.erase gone) := by
  intro data name content clear named found
  by_cases isGone : name = gone
  · rw [isGone, AList.lookup_erase] at found
    cases found
  · rw [AList.lookup_erase_ne isGone] at found
    exact addressed data name content clear named found

theorem guards_convert_addressed {name : Name} {f : Bytes → Except Text (Option Bytes)}
    (good : ∀ data content out, isEncrypted data = false → Kept data content →
      f content = .ok (some out) → Kept data out) :
    Guards (fun account => Addressed account.blobdir) (convert chance faults name f) := by
  have begun : ∀ (account : Account) content out, Addressed account.blobdir →
      account.blobdir.lookup name = some content → f content = .ok (some out) →
      Addressed (withTemp chance name out account).blobdir := by
    intro account content out addressed found changed
    refine addressed_insert addressed fun data clear named => ?_
    rw [stem_tempBeside] at named
    exact good data content out clear (addressed data name content clear named found) changed
  refine guards_convert begun fun account content out addressed found changed => ?_
  refine addressed_insert (addressed_erase (begun account content out addressed found changed) _) ?_
  intro data clear named
  exact good data content out clear (addressed data name content clear named found) changed

theorem guards_ensureKey_addressed :
    Guards (fun account => Addressed account.blobdir) (ensureKey chance) :=
  guards_ensureKey fun _ addressed _ => addressed

theorem guards_protect_addressed (name : Name) :
    Guards (fun account => Addressed account.blobdir) (protect chance faults name) :=
  guards_protect guards_ensureKey_addressed fun _ process _ =>
    guards_convert_addressed (fun _ _ _ _ => kept_of_protectedData) process

theorem guards_migrate_addressed (encrypt : Bool) :
    Guards (fun account => Addressed account.blobdir) (migrate chance faults encrypt) :=
  guards_migrate fun _ _ process _ =>
    guards_convert_addressed (fun _ _ _ => kept_of_migratedData) process

theorem guards_enable_addressed :
    Guards (fun account => Addressed account.blobdir) (enable chance faults) := by
  refine Guards.bind (Guards.inspect _) fun encrypted => ?_
  cases encrypted with
  | false =>
    rw [if_neg Bool.false_ne_true]
    exact Guards.inspect _
  | true =>
    exact Guards.bind guards_ensureKey_addressed fun _ =>
      Guards.bind (guards_setBlobEncryption fun _ addressed => addressed) fun _ =>
        guards_migrate_addressed true

theorem guards_disable_addressed :
    Guards (fun account => Addressed account.blobdir) (disable chance faults) :=
  Guards.bind (guards_setBlobEncryption fun _ addressed => addressed) fun _ =>
    Guards.bind (guards_migrate_addressed false) fun _ =>
      Guards.bind (guards_setKey fun _ addressed => addressed) fun _ => Guards.pure _

end Addressed

/-! ## Sources -/

section

variable [Aead] [Digest] [Unicode] [Sanitizer]

inductive Origin where
  | bytes (data : Bytes)
  | file (data : Bytes)
  | own (name : Name)
  | foreign (name : Name)

structure Accounts where
  own : Account
  other : Account

def Origin.onDisk (accounts : Accounts) : Origin → Option Bytes
  | .bytes data => some data
  | .file data => some data
  | .own name => accounts.own.blobdir.lookup name
  | .foreign name => accounts.other.blobdir.lookup name

def Origin.plaintext (accounts : Accounts) : Origin → Except Text Bytes
  | .bytes data => .ok data
  | .file data => .ok data
  | .own name => readBlob name accounts.own
  | .foreign name => readBlob name accounts.other

def Origin.store (chance : Chance) (faults : Faults) (other : Account) (original : Text) :
    Origin → BlobAction Name
  | .bytes data => createAndDeduplicateFromBytes chance faults data original
  | .file data => createAndDeduplicate chance faults (.outside data) original
  | .own name => createAndDeduplicate chance faults (.inside name) original
  | .foreign name =>
    match other.blobdir.lookup name with
    | some data => createAndDeduplicate chance faults (.outside data) original
    | none => inspect fun _ => .error notFound

def Origin.carrier (chance : Chance) : Origin → Name
  | .own name => name
  | _ => storeTempName chance

variable {chance : Chance} {faults : Faults} {original : Text} {process after : Process Account}
  {name : Name} {data : Bytes} {left : Nat} {accounts : Accounts} {origin : Origin}

theorem createOutside_eq (data : Bytes) :
    createAndDeduplicate chance faults (.outside data) original =
      createAndDeduplicateFromBytes chance faults data original := by
  simp [createAndDeduplicate, createAndDeduplicateFromBytes, bringInside]

/-! ## What storing does -/

/-- The carrier has become the blob, sealed or not, and nothing else has changed
but for a temporary. -/
structure Touched (chance : Chance) (carrier name : Name) (data : Bytes)
    (before after : Account) : Prop where
  key : ∀ held, before.key = some held → after.key = some held
  others : ∀ other, other ≠ name → other ≠ carrier → other ≠ tempBeside chance name →
    after.blobdir.lookup other = before.blobdir.lookup other
  gone : carrier ≠ name → carrier ≠ tempBeside chance name → after.blobdir.lookup carrier = none
  file : ∃ content, after.blobdir.lookup name = some content ∧
    (content = data ∨ isEncrypted data = false ∧
      ∃ held nonce, after.key = some held ∧ content = sealBlob held nonce data)

variable {carrier : Name} {before : Account}

section

omit [Digest] [Unicode] [Sanitizer]

theorem touched_moved {placed : Account} (settings : placed.key = before.key)
    (others : ∀ other, other ≠ carrier →
      placed.blobdir.lookup other = before.blobdir.lookup other) :
    Touched chance carrier name data before (moved carrier name data placed) := by
  refine ⟨fun held isHeld => settings.trans isHeld, fun other isOther different _ => ?_,
    fun different _ => ?_, data, lookup_moved_self _ _, Or.inl rfl⟩
  · rw [moved, renamed, AList.lookup_insert_ne isOther, AList.lookup_erase_ne different,
      others other different]
  · rw [moved, renamed, AList.lookup_insert_ne different, AList.lookup_erase]

theorem Touched.convert {key : Key} :
    Guards (fun account => account.key = some key ∧
        Touched chance carrier name data before account)
      (convert chance faults name (protectedData key (chance.nonce name))) := by
  have apart := (tempBeside_ne chance name).symm
  refine guards_convert ?_ ?_
  · rintro account _ out ⟨hasKey, touched⟩ _ _
    obtain ⟨content, found, form⟩ := touched.file
    refine ⟨hasKey, touched.key, fun other isOther different isTemp => ?_,
      fun different isTemp => ?_, content, ?_, form⟩
    · exact (lookup_withTemp isTemp out account).trans
        (touched.others other isOther different isTemp)
    · exact (lookup_withTemp isTemp out account).trans (touched.gone different isTemp)
    · exact (lookup_withTemp apart out account).trans found
  · rintro account known out ⟨hasKey, touched⟩ isKnown changed
    obtain ⟨content, found, form⟩ := touched.file
    obtain rfl : content = known := Option.some.inj (found.symm.trans isKnown)
    refine ⟨hasKey, touched.key, fun other isOther different isTemp => ?_,
      fun different isTemp => ?_, out, lookup_withFile_self out account, ?_⟩
    · exact (lookup_withFile isOther isTemp out account).trans
        (touched.others other isOther different isTemp)
    · exact (lookup_withFile different isTemp out account).trans (touched.gone different isTemp)
    · unfold protectedData at changed
      split at changed
      · cases changed
      next clear =>
        cases changed
        rcases form with rfl | ⟨_, held, nonce, _, rfl⟩
        · exact Or.inr ⟨by simpa using clear, key, _, hasKey, rfl⟩
        · exact absurd (isEncrypted_sealBlob held nonce data) clear

theorem Touched.ensureKey :
    Guards (Touched chance carrier name data before) (ensureKey chance) := by
  refine guards_ensureKey fun account touched isNew => ?_
  obtain ⟨content, found, form⟩ := touched.file
  refine ⟨fun held isHeld => ?_, touched.others, touched.gone, content, found, ?_⟩
  · cases isNew.symm.trans (touched.key held isHeld)
  · refine form.imp_right ?_
    rintro ⟨_, _, _, hasKey, _⟩
    cases isNew.symm.trans hasKey

theorem Touched.protect :
    Guards (Touched chance carrier name data before) (protect chance faults name) :=
  guards_protect Touched.ensureKey fun _ process hasKey touched =>
    (Touched.convert process ⟨hasKey, touched⟩).2

theorem touched_of_attempt {result : Option Unit}
    (start : Touched chance carrier name data before process.state)
    (guarded : (attempt (protect chance faults name)).run process = .ok result after) :
    Touched chance carrier name data before after.state := by
  have guards : Guards (Touched chance carrier name data before)
      (attempt (protect chance faults name)) := Guards.attempt Touched.protect
  rw [← stateAfter_of_ok guarded]
  exact guards process start

end

theorem touched_of_store
    (stored : (origin.store chance faults accounts.other original).run ⟨accounts.own, left⟩ =
      .ok name after) :
    ∃ data, origin.onDisk accounts = some data ∧ name = blobName data original ∧
      Touched chance (origin.carrier chance) name data accounts.own after.state := by
  have fromBytes : ∀ data, (createAndDeduplicateFromBytes chance faults data original).run
      ⟨accounts.own, left⟩ = .ok name after → name = blobName data original ∧
        Touched chance (storeTempName chance) name data accounts.own after.state := by
    intro data stored
    obtain ⟨placed, result, isName, isPlaced, guarded⟩ := createFromBytes_eq_ok stored
    have start : Touched chance (storeTempName chance) name data accounts.own placed.state := by
      rw [isPlaced]
      exact touched_moved rfl fun other different => AList.lookup_insert_ne different
    exact ⟨isName, touched_of_attempt start guarded⟩
  cases origin with
  | bytes data => exact ⟨data, rfl, fromBytes data stored⟩
  | file data =>
    rw [Origin.store, createOutside_eq] at stored
    exact ⟨data, rfl, fromBytes data stored⟩
  | own source =>
    obtain ⟨data, placed, result, found, isName, isPlaced, guarded⟩ := inside_eq_ok stored
    have start : Touched chance source name data accounts.own placed.state := by
      rw [isPlaced]
      exact touched_moved rfl fun _ _ => rfl
    exact ⟨data, found, isName, touched_of_attempt start guarded⟩
  | foreign source =>
    cases found : accounts.other.blobdir.lookup source with
    | some data =>
      simp only [Origin.store, found, createOutside_eq] at stored
      exact ⟨data, found, fromBytes data stored⟩
    | none =>
      simp only [Origin.store, found] at stored
      obtain ⟨failed, _⟩ := inspect_eq_ok.mp stored
      cases failed

/-! ## Faithful stores -/

/-- The blob reads as the plaintext of its source and is named after it, and every
blob of either account reads as before. -/
structure Faithful (plaintext : Bytes) (original : Text) (name : Name)
    (before after : Accounts) : Prop where
  readsBack : readBlob name after.own = .ok plaintext
  kept : ∀ other found, readBlob other before.own = .ok found →
    readBlob other after.own = .ok found
  keptOther : ∀ other found, readBlob other before.other = .ok found →
    readBlob other after.other = .ok found
  sameName : ∀ twin, blobExtension twin = blobExtension original →
    name = blobName plaintext twin

section

omit [Digest] [Unicode] [Sanitizer]

theorem readBlob_eq_ok {account : Account} {found : Bytes}
    (reads : readBlob name account = .ok found) :
    ∃ content, account.blobdir.lookup name = some content ∧
      decode account.key content = .ok found := by
  unfold readBlob at reads
  split at reads
  next content isContent => exact ⟨content, (contents_eq_ok isContent).2, reads⟩
  next => cases reads

theorem readBlob_of_lookup {account : Account} (found : account.blobdir.lookup name = some data) :
    readBlob name account = decode account.key data := by
  simp [readBlob, contents, found]

theorem decode_of_key {key later : Option Key} {content found : Bytes}
    (grows : ∀ held, key = some held → later = some held)
    (reads : decode key content = .ok found) : decode later content = .ok found := by
  cases key with
  | some held => rwa [grows held rfl]
  | none =>
    unfold decode at reads ⊢
    split at reads
    · cases reads
    next clear =>
      rw [if_neg clear]
      exact reads

theorem plaintext_of_clear (onDisk : origin.onDisk accounts = some data)
    (clear : isEncrypted data = false) : origin.plaintext accounts = .ok data := by
  have plain : ∀ key, decode key data = .ok data := fun key =>
    decode_of_form clear (Or.inl rfl)
  cases origin with
  | bytes known =>
    cases onDisk
    rfl
  | file known =>
    cases onDisk
    rfl
  | own source => exact (readBlob_of_lookup onDisk).trans (plain _)
  | foreign source => exact (readBlob_of_lookup onDisk).trans (plain _)

end

/-- A store is faithful exactly if its source does not look encrypted as it lies on
the disk and, where it is a file of the same blobdir, already has the name that
its contents give it. -/
theorem store_faithful_iff {plaintext : Bytes} (addressed : Addressed accounts.own.blobdir)
    (stored : (origin.store chance faults accounts.other original).run ⟨accounts.own, left⟩ =
      .ok name after)
    (fresh : storeTempName chance ∉ accounts.own.blobdir ∧
      tempBeside chance name ∉ accounts.own.blobdir)
    (onDisk : origin.onDisk accounts = some data)
    (readable : origin.plaintext accounts = .ok plaintext) :
    Faithful plaintext original name accounts ⟨after.state, accounts.other⟩ ↔
      isEncrypted data = false ∧ ∀ source, origin = .own source →
        source = blobName data original := by
  obtain ⟨_, isOnDisk, isName, touched⟩ := touched_of_store stored
  cases onDisk.symm.trans isOnDisk
  have unlike : ∀ {temp other : Name} {content : Bytes}, temp ∉ accounts.own.blobdir →
      accounts.own.blobdir.lookup other = some content → other ≠ temp := by
    rintro temp other content isFresh found rfl
    exact isFresh (AList.mem_keys.mpr (mem_keys_of_lookup found))
  obtain ⟨content, isContent, form⟩ := touched.file
  constructor
  · intro faithful
    have isPlain : plaintext = data :=
      eq_of_blobName_eq ((faithful.sameName original rfl).symm.trans isName)
    subst isPlain
    constructor
    · by_contra encrypted
      rw [Bool.not_eq_false] at encrypted
      rcases form with rfl | ⟨clear, _⟩
      · have reads := faithful.readsBack
        rw [readBlob_of_lookup isContent] at reads
        exact decode_ne_of_isEncrypted encrypted reads
      · rw [clear] at encrypted
        cases encrypted
    · rintro source rfl
      by_contra different
      have gone := touched.gone (isName ▸ different) (unlike fresh.2 onDisk)
      obtain ⟨_, found, _⟩ := readBlob_eq_ok (faithful.kept source plaintext readable)
      cases gone.symm.trans found
  · rintro ⟨clear, settled⟩
    have isPlain : plaintext = data := by
      rw [plaintext_of_clear onDisk clear] at readable
      cases readable
      rfl
    subst isPlain
    have readsBack : readBlob name after.state = .ok plaintext := by
      rw [readBlob_of_lookup isContent]
      refine decode_of_form clear (form.imp_right ?_)
      rintro ⟨_, held, nonce, isHeld, sealed⟩
      exact ⟨held, nonce, isHeld, sealed⟩
    refine ⟨readsBack, fun other found reads => ?_, fun _ _ reads => reads, fun twin same => ?_⟩
    · obtain ⟨old, isOld, decoded⟩ := readBlob_eq_ok reads
      by_cases isNew : other = name
      · -- A file of this name held the same contents already.
        have named : stem other = Digest.hex plaintext := by
          rw [isNew, isName, stem_blobName]
        rw [eq_of_decode_of_kept clear (addressed _ _ _ clear named isOld) decoded, isNew]
        exact readsBack
      · have notCarrier : other ≠ origin.carrier chance := by
          cases origin with
          | own source =>
            rintro rfl
            exact isNew (isName ▸ settled _ rfl)
          | bytes known => exact unlike fresh.1 isOld
          | file known => exact unlike fresh.1 isOld
          | foreign source => exact unlike fresh.1 isOld
        rw [readBlob_of_lookup
          ((touched.others other isNew notCarrier (unlike fresh.2 isOld)).trans isOld)]
        exact decode_of_key touched.key decoded
    · rw [isName]
      unfold blobName
      rw [same]

/-! ## Runs -/

theorem guards_inside_addressed (source : Name) :
    Guards (fun account => Addressed account.blobdir)
      (createAndDeduplicate chance faults (.inside source) original) := by
  refine Guards.bind (Guards.pure source) fun carrier => ?_
  refine Guards.bind_of_ok (Guards.inspect _) fun process data _ addressed asked _ => ?_
  obtain ⟨isData, rfl⟩ := inspect_eq_ok.mp asked
  have found := (contents_eq_ok isData).2
  refine Guards.after_atomic addressed (fun _ later isMoved => ?_) fun _ =>
    Guards.bind (Guards.attempt (guards_protect_addressed _)) fun _ => Guards.pure _
  rw [found] at isMoved
  split at isMoved
  · cases isMoved
  · cases isMoved
    refine addressed_insert (addressed_erase addressed _) fun other _ named => Or.inl ?_
    rw [stem_blobName] at named
    exact Digest.hex_injective named

theorem guards_createFromBytes_addressed (data : Bytes) :
    Guards (fun account => Addressed account.blobdir)
      (createAndDeduplicateFromBytes chance faults data original) := by
  refine Guards.bind (Guards.atomic fun account _ later addressed written => ?_)
    fun _ => guards_inside_addressed _
  split at written
  · cases written
  · cases written
    exact addressed_insert addressed fun other _ named =>
      absurd named (stem_storeTempName_ne chance other)

theorem guards_store_addressed (other : Account) (origin : Origin) :
    Guards (fun account => Addressed account.blobdir)
      (origin.store chance faults other original) := by
  cases origin with
  | bytes data => exact guards_createFromBytes_addressed data
  | file data =>
    rw [Origin.store, createOutside_eq]
    exact guards_createFromBytes_addressed data
  | own source => exact guards_inside_addressed source
  | foreign source =>
    cases found : other.blobdir.lookup source with
    | some data =>
      simp only [Origin.store, found, createOutside_eq]
      exact guards_createFromBytes_addressed data
    | none =>
      simp only [Origin.store, found]
      exact Guards.inspect _

/-- What happens to a blobdir: blobs are stored, from another account's perhaps,
and encryption is turned on and off. -/
inductive Work where
  | call (call : Call) (chance : Chance) (faults : Faults) (left : Nat)
  | store (origin : Origin) (other : Account) (original : Text) (chance : Chance) (faults : Faults)
      (left : Nat)

def work (account : Account) : Work → Account
  | .call call chance faults left =>
    (stateAfter (performCall chance faults call) ⟨account, left⟩).state
  | .store origin other original chance faults left =>
    (stateAfter (origin.store chance faults other original) ⟨account, left⟩).state

theorem addressed_work (account : Account) (op : Work) (addressed : Addressed account.blobdir) :
    Addressed (work account op).blobdir := by
  cases op with
  | store origin other original chance faults left =>
    exact guards_store_addressed other origin ⟨account, left⟩ addressed
  | call call chance faults left =>
    cases call with
    | protect name => exact guards_protect_addressed name ⟨account, left⟩ addressed
    | enable =>
      exact Guards.bind guards_enable_addressed (fun _ => Guards.pure ()) ⟨account, left⟩
        addressed
    | disable =>
      exact Guards.bind guards_disable_addressed (fun _ => Guards.pure ()) ⟨account, left⟩
        addressed

/-- Whatever happened to an account that started with no blobs, its files hold what
they are named after. -/
theorem addressed_run (account : Account) (empty : account.blobdir = ∅) (ops : List Work) :
    Addressed (runAll work account ops).blobdir := by
  refine invariant_of_step addressed_work ops account ?_
  rw [empty]
  exact addressed_empty

end

section

local instance : Aead := transparentCipher

local instance : Digest := hexDigest

local instance : Sanitizer := plainNames

local instance : Unicode := asciiTables

theorem addressed_after_storing :
    Addressed (runAll work vault [.store (.bytes [104, 105]) {} "a.jpg".toList someChance {} 10,
      .call .disable someChance {} 10]).blobdir :=
  addressed_run vault rfl _

theorem bytes_stored_faithfully :
    Faithful [104, 105] "a.jpg".toList photo ⟨vault, {}⟩
      ⟨storedIn vault "a.jpg".toList, {}⟩ := by
  have stored : ((Origin.bytes [104, 105]).store someChance {} {} "a.jpg".toList).run ⟨vault, 10⟩ =
      .ok photo (stateAfter ((Origin.bytes [104, 105]).store someChance {} {} "a.jpg".toList)
        ⟨vault, 10⟩) := run_of_returns (by decide +kernel)
  have addressed : Addressed (Accounts.mk vault {}).own.blobdir := addressed_empty
  exact (store_faithful_iff addressed stored (by decide +kernel) rfl rfl).mpr
    ⟨by decide, fun source isOwn => by cases isOwn⟩

def sealedPhoto : Bytes := sealBlob someKey someNonce [104, 105]

def restored : Account :=
  (stateAfter ((Origin.own photo).store someChance {} {} photo)
    ⟨storedIn vault "a.jpg".toList, 10⟩).state

def forwarded : Account :=
  (stateAfter ((Origin.foreign photo).store someChance {} (storedIn vault "a.jpg".toList) photo)
    ⟨{}, 10⟩).state

/-- A sealed blob that is stored again loses its name, and one that is forwarded to
another account cannot be read there. -/
theorem sealed_sources_unfaithful :
    returns ((Origin.own photo).store someChance {} {} photo)
        ⟨storedIn vault "a.jpg".toList, 10⟩ (blobName sealedPhoto photo) = true ∧
      readBlob photo (storedIn vault "a.jpg".toList) = .ok [104, 105] ∧
      readBlob photo restored = .error notFound ∧
      returns ((Origin.foreign photo).store someChance {} (storedIn vault "a.jpg".toList) photo)
        ⟨{}, 10⟩ (blobName sealedPhoto photo) = true ∧
      readBlob (blobName sealedPhoto photo) forwarded =
        .error "blob is encrypted but no key is available; unlock the database".toList := by
  exact ⟨by decide +kernel, by decide +kernel, by decide +kernel, by decide +kernel,
    by decide +kernel⟩

end

end Eeemail.BlobStore
