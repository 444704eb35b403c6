import Eeemail.Lib.Interrupts
import Eeemail.Lib.Texts

/-! # Blobs and their encryption at rest

`core/src/email/blobcrypt.rs`, `create_and_deduplicate` of `core/src/blob.rs`
and `sanitize_filename` of `core/src/tools.rs`.  A blobdir maps file names to
contents.  Writing a file, renaming one and writing a setting are the atomic
steps between which a process can be killed.  The cipher and the hash are
classes with the laws of ideal ones, and the sanitizer of names any function. -/

set_option autoImplicit false

namespace Eeemail.Blobs

open Lib.Texts Lib.Interrupts

abbrev Bytes := List UInt8
abbrev Name := Text
abbrev Key := { bytes : Bytes // bytes.length = 32 }
abbrev Nonce := { bytes : Bytes // bytes.length = 24 }
abbrev Dir := AList fun _ : Name => Bytes

/-- An ideal cipher: what it encrypted decrypts with its key, and with no other. -/
class Aead where
  encrypt : Key → Nonce → Bytes → Bytes
  decrypt : Key → Nonce → Bytes → Option Bytes
  decrypt_encrypt : ∀ key nonce plaintext,
    decrypt key nonce (encrypt key nonce plaintext) = some plaintext
  decrypt_other : ∀ {key other : Key}, key ≠ other → ∀ nonce plaintext,
    decrypt other nonce (encrypt key nonce plaintext) = none
  length_lt : ∀ {key nonce ciphertext plaintext},
    decrypt key nonce ciphertext = some plaintext → plaintext.length < ciphertext.length

def isHex (c : Char) : Bool := c.isDigit || (decide ('a' ≤ c) && decide (c ≤ 'f'))

/-- An ideal hash, in hexadecimal. -/
class Digest where
  hex : Bytes → Text
  hex_injective : Function.Injective hex
  isHex_of_mem : ∀ {data : Bytes} {c : Char}, c ∈ hex data → isHex c = true

/-! ## The format -/

def magic : Bytes := [69, 69, 69, 66, 76, 79, 66, 49]

def nonceLen : Nat := 24

def headerLen : Nat := magic.length + nonceLen

def isEncrypted (data : Bytes) : Bool := decide (headerLen ≤ data.length) && magic.isPrefixOf data

def nonceOf (data : Bytes) (encrypted : isEncrypted data = true) : Nonce :=
  ⟨(data.drop magic.length).take nonceLen, by
    simp only [isEncrypted, Bool.and_eq_true, decide_eq_true_eq] at encrypted
    have long : magic.length + nonceLen ≤ data.length := encrypted.1
    rw [List.length_take, List.length_drop]
    unfold nonceLen at long ⊢
    omega⟩

section

variable [Aead]

def sealBlob (key : Key) (nonce : Nonce) (plaintext : Bytes) : Bytes :=
  magic ++ nonce.1 ++ Aead.encrypt key nonce plaintext

def openBlob (key : Key) (data : Bytes) : Except Text Bytes :=
  if encrypted : isEncrypted data = true then
    match Aead.decrypt key (nonceOf data encrypted) (data.drop headerLen) with
    | some plaintext => .ok plaintext
    | none => .error "cannot decrypt blob: aead::Error".toList
  else .error "not an encrypted blob".toList

def decode (key : Option Key) (data : Bytes) : Except Text Bytes :=
  if isEncrypted data then
    match key with
    | some key => openBlob key data
    | none =>
      .error "blob is encrypted but no key is available; unlock the database".toList
  else .ok data

end

/-! ## The account -/

/-- The settings of an account that blob encryption depends on, and its blobdir. -/
structure Account where
  /-- The database has a passphrase. -/
  encrypted : Bool := false
  blobEncryption : Bool := false
  key : Option Key := none
  blobdir : Dir := ∅

structure Chance where
  newKey : Key
  nonce : Name → Nonce
  temp : Name → Nat
  storeTemp : Nat

/-- The files that cannot be read, written or replaced during a call. -/
structure Faults where
  read : Name → Bool := fun _ => false
  write : Name → Bool := fun _ => false
  rename : Name → Bool := fun _ => false

abbrev BlobAction (α : Type) := Steps Text Account α

def ioError : Text := "Input/output error (os error 5)".toList

def notFound : Text := "No such file or directory (os error 2)".toList

def contents (faults : Faults) (name : Name) (account : Account) : Except Text Bytes :=
  if faults.read name then .error ioError
  else
    match account.blobdir.lookup name with
    | some data => .ok data
    | none => .error notFound

def readFile (faults : Faults) (name : Name) : BlobAction Bytes := inspect (contents faults name)

def writeFile (faults : Faults) (name : Name) (data : Bytes) : BlobAction Unit :=
  atomic fun account =>
    if faults.write name then .error ioError
    else .ok ((), { account with blobdir := account.blobdir.insert name data })

def renamed (source target : Name) (data : Bytes) (dir : Dir) : Dir :=
  (dir.erase source).insert target data

def renameFile (faults : Faults) (source target : Name) : BlobAction Unit :=
  atomic fun account =>
    if faults.rename target then .error ioError
    else
      match account.blobdir.lookup source with
      | some data =>
        .ok ((), { account with blobdir := renamed source target data account.blobdir })
      | none => .error notFound

def setBlobEncryption (value : Bool) : BlobAction Unit :=
  atomic fun account => .ok ((), { account with blobEncryption := value })

def setKey (key : Option Key) : BlobAction Unit :=
  atomic fun account => .ok ((), { account with key })

def keyOf : BlobAction (Option Key) := inspect fun account => .ok account.key

def ensureKey (chance : Chance) : BlobAction Key := do
  match ← keyOf with
  | some key => pure key
  | none => do
    setKey (some chance.newKey)
    pure chance.newKey

/-! ## Converting files -/

def tempMark : Text := ".tmp-".toList

def tempBeside (chance : Chance) (name : Name) : Name :=
  name ++ tempMark ++ (toString (chance.temp name)).toList

def replaceFile (chance : Chance) (faults : Faults) (name : Name) (out : Bytes) :
    BlobAction Unit := do
  writeFile faults (tempBeside chance name) out
  renameFile faults (tempBeside chance name) name

/-- Rewrites one file through `f`, which says `none` if nothing is to be done. -/
def convert (chance : Chance) (faults : Faults) (name : Name)
    (f : Bytes → Except Text (Option Bytes)) : BlobAction Unit := do
  let data ← readFile faults name
  match ← inspect fun _ => f data with
  | none => pure ()
  | some out => replaceFile chance faults name out

section

variable [Aead]

def readBlob (name : Name) (account : Account) : Except Text Bytes :=
  match contents {} name account with
  | .ok data => decode account.key data
  | .error e => .error e

def protectedData (key : Key) (nonce : Nonce) (data : Bytes) : Except Text (Option Bytes) :=
  if isEncrypted data then .ok none else .ok (some (sealBlob key nonce data))

def protect (chance : Chance) (faults : Faults) (name : Name) : BlobAction Unit := do
  if ← inspect fun account => .ok account.blobEncryption then do
    let key ← ensureKey chance
    convert chance faults name (protectedData key (chance.nonce name))
  else pure ()

def migratedData (key : Key) (encrypt : Bool) (nonce : Nonce) (data : Bytes) :
    Except Text (Option Bytes) :=
  match encrypt, isEncrypted data with
  | true, false => .ok (some (sealBlob key nonce data))
  | false, true =>
    match openBlob key data with
    | .ok plaintext => .ok (some plaintext)
    | .error e => .error e
  | _, _ => .ok none

def migrateFiles (chance : Chance) (faults : Faults) (key : Key) (encrypt : Bool) :
    List Name → BlobAction Nat
  | [] => pure 0
  | name :: rest =>
    if contains tempMark name then migrateFiles chance faults key encrypt rest
    else do
      let result ← attempt
        (convert chance faults name (migratedData key encrypt (chance.nonce name)))
      let converted ← migrateFiles chance faults key encrypt rest
      pure (if result.isSome then converted + 1 else converted)

def migrate (chance : Chance) (faults : Faults) (encrypt : Bool) : BlobAction Nat := do
  match ← keyOf with
  | none => pure 0
  | some key => do
    let names ← inspect fun account => .ok account.blobdir.keys
    migrateFiles chance faults key encrypt names

def enable (chance : Chance) (faults : Faults) : BlobAction Nat := do
  if ← inspect fun account => .ok account.encrypted then do
    let _ ← ensureKey chance
    setBlobEncryption true
    migrate chance faults true
  else
    inspect fun _ => .error
      ("set a database passphrase first: the blob key is stored in the database, " ++
        "so encrypting blobs without encrypting the database protects nothing").toList

def disable (chance : Chance) (faults : Faults) : BlobAction Nat := do
  setBlobEncryption false
  let converted ← migrate chance faults false
  setKey none
  pure converted

end

/-! ## File names -/

def utf8Len (s : Text) : Nat := (s.map Char.utf8Size).sum

def lastPart (c : Char) (name : Text) : Text :=
  ((split c name).reverse.find? fun part => !part.isEmpty).getD name

/-- The crate `sanitize_filename`. -/
class Sanitizer where
  /-- With `windows` and `truncate` and no replacement. -/
  sanitizeWithOptions : Text → Text

def sanitizeFilename [Sanitizer] (name : Text) : Text :=
  let name := Sanitizer.sanitizeWithOptions (lastPart '\\' (lastPart '/' name))
  if startsWith ['.'] name || name.isEmpty then "file".toList ++ name else name

def fileName (path : Text) : Option Text :=
  match ((split '/' path).filter fun part => !part.isEmpty && part != ['.']).getLast? with
  | some part => if part = "..".toList then none else some part
  | none => none

def extension (path : Text) : Option Text :=
  match (fileName path).bind (rsplitOnce '.') with
  | some (stem, ext) => if stem.isEmpty then none else some ext
  | none => none

section

variable [Unicode] [Sanitizer]

def blobExtension (original : Text) : Option Text :=
  ((extension original).filter fun ext => decide (utf8Len ext ≤ 32)).map fun ext =>
    sanitizeFilename (lowercase ext)

variable [Digest]

def blobName (data : Bytes) (original : Text) : Name :=
  match blobExtension original with
  | some ext => Digest.hex data ++ '.' :: ext
  | none => Digest.hex data

end

/-! ## Storing a blob -/

/-- Where a blob is made from: a file in the blobdir, or the contents of a file
elsewhere. -/
inductive Source where
  | inside (name : Name)
  | outside (data : Bytes)

def storeTempName (chance : Chance) : Name :=
  "tmp-".toList ++ (toString chance.storeTemp).toList

/-- The file in the blobdir that is renamed: a file from elsewhere is copied first. -/
def bringInside (chance : Chance) (faults : Faults) : Source → BlobAction Name
  | .inside name => pure name
  | .outside data => do
    writeFile faults (storeTempName chance) data
    pure (storeTempName chance)

section

variable [Aead] [Digest] [Unicode] [Sanitizer]

def createAndDeduplicate (chance : Chance) (faults : Faults) (source : Source) (original : Text) :
    BlobAction Name := do
  let name ← bringInside chance faults source
  let data ← readFile faults name
  renameFile faults name (blobName data original)
  let _ ← attempt (protect chance faults (blobName data original))
  pure (blobName data original)

def createAndDeduplicateFromBytes (chance : Chance) (faults : Faults) (data : Bytes)
    (original : Text) : BlobAction Name := do
  writeFile faults (storeTempName chance) data
  createAndDeduplicate chance faults (.inside (storeTempName chance)) original

end

/-! ## Primitives to evaluate with -/

/-- A cipher that puts the key before the plaintext: it meets the laws and hides nothing. -/
@[reducible]
def transparentCipher : Aead where
  encrypt key _ plaintext := key.1 ++ plaintext
  decrypt key _ ciphertext :=
    if key.1.isPrefixOf ciphertext then some (ciphertext.drop 32) else none
  decrypt_encrypt key _ plaintext := by
    have starts : key.1.isPrefixOf (key.1 ++ plaintext) = true := by
      rw [List.isPrefixOf_iff_prefix]
      exact List.prefix_append _ _
    rw [if_pos starts, List.drop_left' key.2]
  decrypt_other {key other} different _ plaintext := by
    rw [if_neg]
    intro starts
    rw [List.isPrefixOf_iff_prefix] at starts
    have same := List.prefix_of_prefix_length_le starts (List.prefix_append key.1 plaintext)
      (by rw [key.2, other.2])
    exact different (Subtype.ext (same.eq_of_length (by rw [key.2, other.2])).symm)
  length_lt {key _ ciphertext plaintext} decrypted := by
    split at decrypted
    next starts =>
      cases decrypted
      have long := (List.isPrefixOf_iff_prefix.mp starts).length_le
      rw [key.2] at long
      rw [List.length_drop]
      omega
    next => cases decrypted

def hexByte (byte : UInt8) : Text :=
  [Nat.digitChar (byte.toNat / 16), Nat.digitChar (byte.toNat % 16)]

theorem digitChar_injective : ∀ m < 16, ∀ n < 16, Nat.digitChar m = Nat.digitChar n → m = n := by
  decide

theorem isHex_digitChar : ∀ n < 16, isHex (Nat.digitChar n) = true := by
  decide

theorem hexByte_injective {a b : UInt8} (same : hexByte a = hexByte b) : a = b := by
  simp only [hexByte, List.cons.injEq, and_true] at same
  have high := digitChar_injective _ (by have := a.toNat_lt; omega) _
    (by have := b.toNat_lt; omega) same.1
  have low := digitChar_injective _ (Nat.mod_lt _ (by decide)) _ (Nat.mod_lt _ (by decide)) same.2
  apply UInt8.toNat_inj.mp
  omega

theorem flatMap_hexByte_injective :
    Function.Injective fun data : Bytes => data.flatMap hexByte := by
  intro first
  induction first with
  | nil =>
    intro second same
    cases second with
    | nil => rfl
    | cons byte rest => simp [hexByte] at same
  | cons byte rest ih =>
    intro second same
    cases second with
    | nil => simp [hexByte] at same
    | cons other others =>
      simp only [List.flatMap_cons] at same
      obtain ⟨head, tail⟩ := List.append_inj same rfl
      rw [hexByte_injective head, ih tail]

@[reducible]
def plainNames : Sanitizer := ⟨id⟩

@[reducible]
def hexDigest : Digest where
  hex data := data.flatMap hexByte
  hex_injective := flatMap_hexByte_injective
  isHex_of_mem {data c} member := by
    obtain ⟨byte, _, isDigit⟩ := List.mem_flatMap.mp member
    have small := byte.toNat_lt
    rcases List.mem_pair.mp isDigit with rfl | rfl
    · exact isHex_digitChar _ (by omega)
    · exact isHex_digitChar _ (by omega)

end Eeemail.Blobs
