import Eeemail.Blobs

/-! # What a conversion does to a file

The format round trip, and what `convert` can do to a blobdir: the file that is
converted changes from one form of its contents to another, a temporary comes
and goes, and every other file stays as it is. -/

set_option autoImplicit false

namespace Eeemail.BlobFiles

open Lib.Texts Lib.Actions Lib.Interrupts Blobs

/-! ## The format -/

section Format

variable [Aead] {key : Key} {nonce : Nonce} {data plaintext : Bytes}

theorem drop_magic_sealBlob : (sealBlob key nonce plaintext).drop magic.length =
      nonce.1 ++ Aead.encrypt key nonce plaintext := by
  rw [sealBlob, List.append_assoc, List.drop_left]

theorem isEncrypted_sealBlob (key : Key) (nonce : Nonce) (plaintext : Bytes) :
    isEncrypted (sealBlob key nonce plaintext) = true := by
  have starts : magic.isPrefixOf (sealBlob key nonce plaintext) = true := by
    rw [List.isPrefixOf_iff_prefix, sealBlob, List.append_assoc]
    exact List.prefix_append _ _
  have long : headerLen ≤ (sealBlob key nonce plaintext).length := by
    simp only [sealBlob, List.length_append, nonce.2, headerLen, nonceLen]
    omega
  simp [isEncrypted, starts, long]

theorem nonceOf_sealBlob (encrypted : isEncrypted (sealBlob key nonce plaintext) = true) :
    nonceOf (sealBlob key nonce plaintext) encrypted = nonce := by
  apply Subtype.ext
  change ((sealBlob key nonce plaintext).drop magic.length).take nonceLen = nonce.1
  rw [drop_magic_sealBlob, List.take_left' (show nonce.1.length = nonceLen from nonce.2)]

theorem drop_header_sealBlob :
    (sealBlob key nonce plaintext).drop headerLen = Aead.encrypt key nonce plaintext := by
  rw [headerLen, ← List.drop_drop, drop_magic_sealBlob,
    List.drop_left' (show nonce.1.length = nonceLen from nonce.2)]

theorem openBlob_sealBlob (key : Key) (nonce : Nonce) (plaintext : Bytes) :
    openBlob key (sealBlob key nonce plaintext) = .ok plaintext := by
  rw [openBlob, dif_pos (isEncrypted_sealBlob key nonce plaintext), nonceOf_sealBlob,
    drop_header_sealBlob, Aead.decrypt_encrypt]

theorem openBlob_eq_ok (opened : openBlob key data = .ok plaintext) :
    isEncrypted data = true ∧ plaintext.length < data.length := by
  unfold openBlob at opened
  split at opened
  next encrypted =>
    refine ⟨encrypted, ?_⟩
    split at opened
    next found decrypted =>
      cases opened
      have shorter := Aead.length_lt decrypted
      rw [List.length_drop] at shorter
      omega
    next => cases opened
  next => cases opened

theorem openBlob_other {other : Key} (different : key ≠ other) (found : Bytes) :
    openBlob other (sealBlob key nonce plaintext) ≠ .ok found := by
  rw [openBlob, dif_pos (isEncrypted_sealBlob key nonce plaintext), nonceOf_sealBlob,
    drop_header_sealBlob, Aead.decrypt_other different]
  exact fun same => by cases same

theorem decode_ne_of_isEncrypted {key : Option Key} (encrypted : isEncrypted data = true) :
    decode key data ≠ .ok data := by
  unfold decode
  rw [if_pos encrypted]
  cases key with
  | none => exact fun same => by cases same
  | some key =>
    intro opened
    exact Nat.lt_irrefl _ (openBlob_eq_ok opened).2

def Form (key : Option Key) (plaintext data : Bytes) : Prop :=
  data = plaintext ∨ ∃ held nonce, key = some held ∧ data = sealBlob held nonce plaintext

theorem decode_of_form {key : Option Key} (clear : isEncrypted plaintext = false)
    (form : Form key plaintext data) : decode key data = .ok plaintext := by
  unfold decode
  rcases form with rfl | ⟨held, nonce, rfl, rfl⟩
  · rw [clear]
    rfl
  · rw [if_pos (isEncrypted_sealBlob held nonce plaintext)]
    exact openBlob_sealBlob held nonce plaintext

theorem form_of_protectedData {out : Bytes} (form : Form (some key) plaintext data)
    (changed : protectedData key nonce data = .ok (some out)) : Form (some key) plaintext out := by
  unfold protectedData at changed
  split at changed
  · cases changed
  next clear =>
    cases changed
    rcases form with rfl | ⟨held, other, _, rfl⟩
    · exact Or.inr ⟨key, nonce, rfl, rfl⟩
    · exact absurd (isEncrypted_sealBlob held other plaintext) clear

theorem form_of_migratedData {out : Bytes} {encrypt : Bool} (clear : isEncrypted plaintext = false)
    (form : Form (some key) plaintext data)
    (changed : migratedData key encrypt nonce data = .ok (some out)) :
    Form (some key) plaintext out := by
  unfold migratedData at changed
  split at changed
  next isClear =>
    cases changed
    rcases form with rfl | ⟨held, other, _, rfl⟩
    · exact Or.inr ⟨key, nonce, rfl, rfl⟩
    · rw [isEncrypted_sealBlob] at isClear
      cases isClear
  next isSealed =>
    rcases form with rfl | ⟨held, other, same, rfl⟩
    · rw [clear] at isSealed
      cases isSealed
    · cases same
      rw [openBlob_sealBlob] at changed
      cases changed
      exact Or.inl rfl
  next => cases changed

end Format

/-! ## One conversion -/

section Convert

variable {chance : Chance} {faults : Faults} {name : Name}
  {f : Bytes → Except Text (Option Bytes)} {process after : Process Account}

def withTemp (chance : Chance) (name : Name) (out : Bytes) (account : Account) : Account :=
  { account with blobdir := account.blobdir.insert (tempBeside chance name) out }

def withFile (chance : Chance) (name : Name) (out : Bytes) (account : Account) : Account :=
  let temp := tempBeside chance name
  { account with blobdir := renamed temp name out (account.blobdir.insert temp out) }

theorem tempBeside_ne (chance : Chance) (name : Name) : tempBeside chance name ≠ name := by
  intro same
  have lengths := congrArg List.length same
  simp only [tempBeside, tempMark, List.length_append] at lengths
  have marked : ".tmp-".toList.length = 5 := rfl
  omega

theorem lookup_withTemp {other : Name} (different : other ≠ tempBeside chance name) (out : Bytes)
    (account : Account) :
    (withTemp chance name out account).blobdir.lookup other = account.blobdir.lookup other :=
  AList.lookup_insert_ne different

theorem lookup_withFile {other : Name} (isOther : other ≠ name)
    (different : other ≠ tempBeside chance name) (out : Bytes) (account : Account) :
    (withFile chance name out account).blobdir.lookup other = account.blobdir.lookup other := by
  rw [withFile, renamed, AList.lookup_insert_ne isOther, AList.lookup_erase_ne different,
    AList.lookup_insert_ne different]

theorem lookup_withFile_self (out : Bytes) (account : Account) :
    (withFile chance name out account).blobdir.lookup name = some out :=
  AList.lookup_insert _

inductive Replaced (chance : Chance) (faults : Faults) (name : Name) (out : Bytes)
    (account : Account) : EStateM.Result (Stop Text) (Process Account) Unit → Prop where
  | killed (left : Nat) : Replaced chance faults name out account (.error .killed ⟨account, left⟩)
  | unwritten (e : Text) (left : Nat) (fault : faults.write (tempBeside chance name) = true) :
      Replaced chance faults name out account (.error (.failed e) ⟨account, left⟩)
  | begun (left : Nat) :
      Replaced chance faults name out account
        (.error .killed ⟨withTemp chance name out account, left⟩)
  | unrenamed (e : Text) (left : Nat) (fault : faults.rename name = true) :
      Replaced chance faults name out account
        (.error (.failed e) ⟨withTemp chance name out account, left⟩)
  | done (left : Nat) (written : faults.write (tempBeside chance name) = false)
      (renamed : faults.rename name = false) :
      Replaced chance faults name out account (.ok () ⟨withFile chance name out account, left⟩)

theorem replaced_replaceFile (chance : Chance) (faults : Faults) (name : Name) (out : Bytes)
    (account : Account) (left : Nat) :
    Replaced chance faults name out account
      ((replaceFile chance faults name out).run ⟨account, left⟩) := by
  rw [replaceFile, EStateM.run_bind]
  cases left with
  | zero => exact .killed 0
  | succ left =>
    cases unwritable : faults.write (tempBeside chance name) with
    | true =>
      have failed : (writeFile faults (tempBeside chance name) out).run ⟨account, left + 1⟩ =
          .error (.failed ioError) ⟨account, left⟩ := by
        simp [writeFile, atomic, EStateM.run, unwritable]
      rw [failed]
      exact .unwritten _ _ unwritable
    | false =>
      have written : (writeFile faults (tempBeside chance name) out).run ⟨account, left + 1⟩ =
          .ok () ⟨withTemp chance name out account, left⟩ := by
        simp [writeFile, atomic, EStateM.run, unwritable, withTemp]
      rw [written]
      simp only
      cases left with
      | zero => exact .begun 0
      | succ left =>
        cases unrenamable : faults.rename name with
        | true =>
          have failed : (renameFile faults (tempBeside chance name) name).run
              ⟨withTemp chance name out account, left + 1⟩ =
              .error (.failed ioError) ⟨withTemp chance name out account, left⟩ := by
            simp [renameFile, atomic, EStateM.run, unrenamable]
          rw [failed]
          exact .unrenamed _ _ unrenamable
        | false =>
          have moved : (renameFile faults (tempBeside chance name) name).run
              ⟨withTemp chance name out account, left + 1⟩ =
              .ok () ⟨withFile chance name out account, left⟩ := by
            simp [renameFile, atomic, EStateM.run, unrenamable, withTemp, withFile]
          rw [moved]
          exact .done _ unwritable unrenamable

theorem contents_eq_ok {account : Account} {data : Bytes}
    (found : contents faults name account = .ok data) :
    faults.read name = false ∧ account.blobdir.lookup name = some data := by
  unfold contents at found
  split at found
  · cases found
  next readable =>
    split at found
    next isFile =>
      cases found
      exact ⟨by simpa using readable, isFile⟩
    next => cases found

inductive Converted (chance : Chance) (faults : Faults) (name : Name)
    (f : Bytes → Except Text (Option Bytes)) (process : Process Account) :
    EStateM.Result (Stop Text) (Process Account) Unit → Prop where
  | unread (e : Text)
      (fault : faults.read name = true ∨ process.state.blobdir.lookup name = none) :
      Converted chance faults name f process (.error (.failed e) process)
  | refused (data : Bytes) (found : process.state.blobdir.lookup name = some data) (e : Text)
      (failed : f data = .error e) :
      Converted chance faults name f process (.error (.failed e) process)
  | same (data : Bytes) (found : process.state.blobdir.lookup name = some data)
      (nothing : f data = .ok none) : Converted chance faults name f process (.ok () process)
  | replaced (data : Bytes) (found : process.state.blobdir.lookup name = some data)
      (readable : faults.read name = false) (out : Bytes) (changed : f data = .ok (some out))
      {result : EStateM.Result (Stop Text) (Process Account) Unit}
      (isReplaced : Replaced chance faults name out process.state result) :
      Converted chance faults name f process result

theorem converted_convert (chance : Chance) (faults : Faults) (name : Name)
    (f : Bytes → Except Text (Option Bytes)) (process : Process Account) :
    Converted chance faults name f process ((convert chance faults name f).run process) := by
  rw [convert, EStateM.run_bind]
  cases known : contents faults name process.state with
  | error e =>
    have fault : faults.read name = true ∨ process.state.blobdir.lookup name = none := by
      unfold contents at known
      split at known
      next fault => exact Or.inl fault
      next =>
        split at known
        · cases known
        next missing => exact Or.inr missing
    rw [readFile, inspect_run_of_error known]
    exact .unread e fault
  | ok data =>
    obtain ⟨readable, found⟩ := contents_eq_ok known
    rw [readFile, inspect_run_of_ok known]
    simp only
    rw [EStateM.run_bind]
    cases changed : f data with
    | error e =>
      exact .refused data found e changed
    | ok change =>
      cases change with
      | none => exact .same data found changed
      | some out =>
        exact .replaced data found readable out changed
          (replaced_replaceFile chance faults name out process.state process.left)

theorem guards_convert {Inv : Account → Prop}
    (begun : ∀ account data out, Inv account → account.blobdir.lookup name = some data →
      f data = .ok (some out) → Inv (withTemp chance name out account))
    (done : ∀ account data out, Inv account → account.blobdir.lookup name = some data →
      f data = .ok (some out) → Inv (withFile chance name out account)) :
    Guards Inv (convert chance faults name f) := by
  intro process good
  have converted := converted_convert chance faults name f process
  unfold stateAfter
  generalize (convert chance faults name f).run process = result at converted ⊢
  cases converted with
  | unread e fault => exact good
  | refused data found e failed => exact good
  | same data found nothing => exact good
  | replaced data found readable out changed isReplaced =>
    cases isReplaced with
    | killed left => exact good
    | unwritten e left fault => exact good
    | begun left => exact begun _ _ _ good found changed
    | unrenamed e left fault => exact begun _ _ _ good found changed
    | done left _ _ => exact done _ _ _ good found changed

def conversion (chance : Chance) (faults : Faults) (name : Name)
    (f : Bytes → Except Text (Option Bytes)) (data : Bytes) : Option Bytes :=
  if faults.read name || faults.write (tempBeside chance name) || faults.rename name then none
  else
    match f data with
    | .ok out => out
    | .error _ => none

/-- A conversion that was not killed: the file has its new contents, and every
other file but the temporary is as it was. -/
structure Through (chance : Chance) (faults : Faults) (name : Name)
    (f : Bytes → Except Text (Option Bytes)) (before after : Account) : Prop where
  settings : after = { before with blobdir := after.blobdir }
  others : ∀ other, other ≠ name → other ≠ tempBeside chance name →
    after.blobdir.lookup other = before.blobdir.lookup other
  file : ∀ data, before.blobdir.lookup name = some data →
    after.blobdir.lookup name = some ((conversion chance faults name f data).getD data)

theorem Through.unchanged {before : Account}
    (nothing : ∀ data, before.blobdir.lookup name = some data →
      (conversion chance faults name f data).getD data = data) :
    Through chance faults name f before before :=
  ⟨rfl, fun _ _ _ => rfl, fun data found => by rw [found, nothing data found]⟩

theorem Through.begun {before : Account} {out : Bytes}
    (nothing : ∀ data, conversion chance faults name f data = none) :
    Through chance faults name f before (withTemp chance name out before) := by
  refine ⟨rfl, fun other _ different => lookup_withTemp different out before, fun data found => ?_⟩
  rw [lookup_withTemp (tempBeside_ne chance name).symm, found, nothing]
  rfl

theorem through_of_attempt {result : Option Unit}
    (went : (attempt (convert chance faults name f)).run process = .ok result after) :
    Through chance faults name f process.state after.state := by
  have converted := converted_convert chance faults name f process
  rcases attempt_eq_ok.mp went with ⟨_, _, run⟩ | ⟨_, e, run⟩
  · rw [run] at converted
    cases converted with
    | same data found nothing =>
      refine .unchanged fun other isOther => ?_
      cases found.symm.trans isOther
      simp [conversion, nothing]
    | replaced data found readable out changed isReplaced =>
      cases isReplaced with
      | done left written isRenamed =>
        refine ⟨rfl, fun other isOther different =>
          lookup_withFile isOther different out process.state, fun other isOther => ?_⟩
        cases found.symm.trans isOther
        rw [lookup_withFile_self, conversion, readable, written, isRenamed, changed]
        rfl
  · rw [run] at converted
    cases converted with
    | unread e fault =>
      refine .unchanged fun data found => ?_
      have broken : faults.read name = true := by
        rcases fault with broken | missing
        · exact broken
        · rw [missing] at found
          cases found
      simp [conversion, broken]
    | refused data found e failed =>
      refine .unchanged fun other isOther => ?_
      cases found.symm.trans isOther
      simp [conversion, failed]
    | replaced data found readable out changed isReplaced =>
      cases isReplaced with
      | unwritten e left fault => exact .unchanged fun _ _ => by simp [conversion, fault]
      | unrenamed e left fault => exact .begun fun _ => by simp [conversion, fault]

end Convert

end Eeemail.BlobFiles
