import Igra.Kaswallet.Signing

/-!
# Stored mnemonics

A keys file holds each mnemonic as two texts: the salt of the password hash,
and in hexadecimal the nonce followed by the encrypted phrase.  Either text may
be anything when it is read back.
-/

open Rust

namespace Kaswallet

structure SaltString where
  text : String
deriving DecidableEq

/-- The crates behind the password hash, the cipher and the phrases. -/
structure Encryption where
  /-- `SaltString::from_b64` -/
  saltFromB64 : String → Except String SaltString
  /-- `SaltString::generate`, which draws 16 bytes -/
  generateSalt : FixedBytes 16 → SaltString
  /-- the `hash` of `Argon2::default().hash_password` -/
  hashPassword : List UInt8 → SaltString →
    Except String (Option (List UInt8))
  /-- `XChaCha20Poly1305::encrypt_in_place` without associated data -/
  encryptInPlace : FixedBytes 32 → FixedBytes 24 → List UInt8 →
    Except String (List UInt8)
  /-- `XChaCha20Poly1305::decrypt_in_place` without associated data -/
  decryptInPlace : FixedBytes 32 → FixedBytes 24 → List UInt8 →
    Except String (List UInt8)
  /-- the `Display` text of `FromUtf8Error` -/
  describeUtf8Error : List UInt8 → String
  /-- `Mnemonic::new` for English phrases -/
  newMnemonic : String → Except String Mnemonic

/-- What the wallet relies on. -/
structure Encryption.Laws (encryption : Encryption) : Prop where
  length_hash : ∀ {password : List UInt8} {salt : SaltString}
    {hash : List UInt8},
    encryption.hashPassword password salt = .ok (some hash) →
      hash.length = 32
  saltFromB64_generateSalt : ∀ random : FixedBytes 16,
    encryption.saltFromB64 (encryption.generateSalt random).text =
      .ok (encryption.generateSalt random)
  decrypt_encrypt : ∀ {key : FixedBytes 32} {nonce : FixedBytes 24}
    {plain sealed : List UInt8},
    encryption.encryptInPlace key nonce plain = .ok sealed →
      encryption.decryptInPlace key nonce sealed = .ok plain

/-- A mnemonic of the crate's type has a phrase that gives it back. -/
def Encryption.Parses (encryption : Encryption) (mnemonic : Mnemonic) :
    Prop :=
  encryption.newMnemonic mnemonic.phrase = .ok mnemonic

section Slices

variable {ε : Type}

/-- `Key::from_slice` and `Nonce::from_slice`. -/
def fromSlice (length : Nat) (bytes : List UInt8) :
    Outcome ε (FixedBytes length) :=
  match FixedBytes.ofList? length bytes with
  | some array => .ok array
  | none => Outcome.panic

/-- `bytes.split_at(middle)`. -/
def splitAt (bytes : List UInt8) (middle : Nat) :
    Outcome ε (List UInt8 × List UInt8) :=
  if middle ≤ bytes.length then .ok (bytes.take middle, bytes.drop middle)
  else Outcome.panic

/-- `text.as_bytes()`. -/
def asBytes (text : String) : List UInt8 :=
  text.toByteArray.data.toList

/-- `String::from_utf8`. -/
def fromUtf8 (describe : List UInt8 → String) (bytes : List UInt8) :
    Except String String :=
  match String.fromUTF8? bytes.toByteArray with
  | some text => .ok text
  | none => .error (describe bytes)

@[simp] theorem fromSlice_bytes {length : Nat} (array : FixedBytes length) :
    (fromSlice length array.bytes : Outcome ε (FixedBytes length)) =
      .ok array := by
  rw [fromSlice, FixedBytes.ofList?_bytes]

theorem exists_fromSlice {length : Nat} {bytes : List UInt8}
    (size : bytes.length = length) :
    ∃ array, (fromSlice length bytes : Outcome ε (FixedBytes length)) =
      .ok array :=
  ⟨⟨bytes, size⟩, fromSlice_bytes ⟨bytes, size⟩⟩

private theorem splitAt_append {left : List UInt8} {middle : Nat}
    (size : left.length = middle) (right : List UInt8) :
    (splitAt (left ++ right) middle :
      Outcome ε (List UInt8 × List UInt8)) = .ok (left, right) := by
  subst size
  rw [splitAt, if_pos (by simp), List.take_left, List.drop_left]

@[simp] theorem fromUtf8_asBytes (describe : List UInt8 → String)
    (text : String) : fromUtf8 describe (asBytes text) = .ok text := by
  have bytes : (asBytes text).toByteArray = text.toByteArray := by
    apply ByteArray.ext
    rw [asBytes, List.data_toByteArray, Array.toArray_toList]
  have decoded : String.fromUTF8? text.toByteArray = some text := by
    rw [String.fromUTF8?, dif_pos text.isValidUTF8]
    rfl
  rw [fromUtf8, bytes, decoded]

end Slices

structure EncryptedMnemonic where
  cipher : String
  salt : String
deriving DecidableEq

namespace EncryptedMnemonic

variable (encryption : Encryption)

def nonceSize : Nat := 24

private def keyFileCorrupt (reason : String) : WalletError :=
  .crypto (.keyFileCorrupt reason)

private def encryptionFailed (reason : String) : WalletError :=
  .crypto (.encryptionFailed reason)

/-- The nonce is the one that the cipher draws. -/
def encrypt (nonce : FixedBytes 24) (mnemonic : Mnemonic) (password : String)
    (salt : SaltString) : WalletResult (List UInt8) := do
  let passwordHash ← mapError encryptionFailed
    (encryption.hashPassword (asBytes password) salt)
  let keyBytes ← Outcome.ofOption
    (encryptionFailed "argon2 password hash missing in encrypt") passwordHash
  let key ← fromSlice 32 keyBytes
  let buffer ← mapError encryptionFailed
    (encryption.encryptInPlace key nonce (asBytes mnemonic.phrase))
  pure (nonce.bytes ++ buffer)

def new (random : FixedBytes 16) (nonce : FixedBytes 24)
    (mnemonic : Mnemonic) (password : String) :
    WalletResult EncryptedMnemonic := do
  let salt := encryption.generateSalt random
  let cipher ← encrypt encryption nonce mnemonic password salt
  pure { cipher := Hex.encode cipher, salt := salt.text }

def decrypt (encrypted : EncryptedMnemonic) (password : String) :
    WalletResult Mnemonic := do
  let salt ← mapError keyFileCorrupt (encryption.saltFromB64 encrypted.salt)
  let passwordHash ← mapError keyFileCorrupt
    (encryption.hashPassword (asBytes password) salt)
  let keyBytes ← Outcome.ofOption
    (keyFileCorrupt "argon2 password hash missing in decrypt") passwordHash
  let key ← fromSlice 32 keyBytes
  let cipherBytes ← decodeHex keyFileCorrupt encrypted.cipher
  let (nonceBytes, cipherText) ← splitAt cipherBytes nonceSize
  let nonce ← fromSlice 24 nonceBytes
  let plain ← mapError (fun _ => .crypto .wrongPassword)
    (encryption.decryptInPlace key nonce cipherText)
  let mnemonicString ← mapError keyFileCorrupt
    (fromUtf8 encryption.describeUtf8Error plain)
  mapError keyFileCorrupt (encryption.newMnemonic mnemonicString)

end EncryptedMnemonic

/-- `Keys::decrypt_mnemonics`. -/
def decryptMnemonics (encryption : Encryption)
    (encryptedMnemonics : List EncryptedMnemonic) (password : String) :
    WalletResult (List Mnemonic) :=
  encryptedMnemonics.foldlM (fun mnemonics encrypted => do
    let mnemonic ← encrypted.decrypt encryption password
    pure (mnemonics ++ [mnemonic])) []

private theorem decodeHex_eq_ok {ε : Type} {wrap : String → ε} {text : String}
    {bytes : List UInt8} :
    decodeHex wrap text = .ok bytes ↔ Hex.decode text = .ok bytes := by
  unfold decodeHex
  split <;> simp [*]

section Safety

/-- What a caller is told when a mnemonic cannot be decrypted. -/
inductive DecryptionError : WalletError → Prop where
  | keyFileCorrupt (reason : String) :
      DecryptionError (.crypto (.keyFileCorrupt reason))
  | wrongPassword : DecryptionError (.crypto .wrongPassword)

def DecryptsSafely {α : Type} (outcome : WalletResult α) : Prop :=
  (∃ value, outcome = .ok value) ∨
    ∃ error, DecryptionError error ∧ outcome = Outcome.err error

variable {α β : Type}

@[simp] theorem decryptsSafely_ok (value : α) :
    DecryptsSafely (.ok value : WalletResult α) :=
  .inl ⟨value, rfl⟩

@[simp] theorem not_decryptsSafely_panic :
    ¬DecryptsSafely (Outcome.panic : WalletResult α) := by
  rintro (⟨value, returned⟩ | ⟨error, kind, failed⟩)
  · exact Outcome.panic_ne_ok value returned
  · exact Outcome.panic_ne_err error failed

theorem decryptsSafely_mapError {wrap : String → WalletError}
    (kind : ∀ reason, DecryptionError (wrap reason))
    (result : Except String α) : DecryptsSafely (mapError wrap result) := by
  cases result with
  | ok value => exact decryptsSafely_ok value
  | error reason => exact .inr ⟨wrap reason, kind reason, rfl⟩

private theorem decryptsSafely_ofOption {error : WalletError}
    (kind : DecryptionError error) (option : Option α) :
    DecryptsSafely (Outcome.ofOption error option) := by
  cases option with
  | some value => exact decryptsSafely_ok value
  | none => exact .inr ⟨error, kind, rfl⟩

private theorem decryptsSafely_decodeHex {wrap : String → WalletError}
    (kind : ∀ reason, DecryptionError (wrap reason)) (text : String) :
    DecryptsSafely (decodeHex wrap text) := by
  unfold decodeHex
  split
  · exact decryptsSafely_ok _
  · exact .inr ⟨_, kind _, rfl⟩

theorem decryptsSafely_bind {first : WalletResult α}
    {next : α → WalletResult β} (safely : DecryptsSafely first) :
    DecryptsSafely (first >>= next) ↔
      ∀ value, first = .ok value → DecryptsSafely (next value) := by
  rcases safely with ⟨value, rfl⟩ | ⟨error, kind, rfl⟩
  · constructor
    · rintro safely _ ⟨rfl⟩
      exact safely
    · intro safely
      exact safely value rfl
  · constructor
    · intro _ value returned
      exact absurd returned.symm (Outcome.ok_ne_err value error)
    · intro _
      exact .inr ⟨error, kind, rfl⟩

theorem decryptsSafely_splitAt_bind {bytes : List UInt8} {middle : Nat}
    {next : List UInt8 × List UInt8 → WalletResult β} :
    DecryptsSafely (splitAt bytes middle >>= next) ↔
      middle ≤ bytes.length ∧
        DecryptsSafely (next (bytes.take middle, bytes.drop middle)) := by
  by_cases inside : middle ≤ bytes.length
  · simp [splitAt, inside]
  · rw [splitAt, if_neg inside]
    constructor
    · intro safely
      exact absurd safely not_decryptsSafely_panic
    · rintro ⟨enough, -⟩
      exact absurd enough inside

end Safety

namespace EncryptedMnemonic

variable {encryption : Encryption} {encrypted : EncryptedMnemonic}
  {password : String}

/-- If the stored salt gives a key, then a cipher in hexadecimal is at least
as long as a nonce. -/
def HoldsNonce (encryption : Encryption) (encrypted : EncryptedMnemonic)
    (password : String) : Prop :=
  ∀ salt keyBytes cipherBytes,
    encryption.saltFromB64 encrypted.salt = .ok salt →
    encryption.hashPassword (asBytes password) salt = .ok (some keyBytes) →
    Hex.decode encrypted.cipher = .ok cipherBytes →
      nonceSize ≤ cipherBytes.length

private theorem corrupt_kind (reason : String) :
    DecryptionError (keyFileCorrupt reason) :=
  .keyFileCorrupt reason

private theorem decryptsSafely_opened {nonceBytes : List UInt8}
    (size : nonceBytes.length = 24) (key : FixedBytes 32)
    (cipherText : List UInt8) :
    DecryptsSafely (do
      let nonce ← fromSlice 24 nonceBytes
      let plain ← mapError (fun _ => .crypto .wrongPassword)
        (encryption.decryptInPlace key nonce cipherText)
      let mnemonicString ← mapError keyFileCorrupt
        (fromUtf8 encryption.describeUtf8Error plain)
      mapError keyFileCorrupt (encryption.newMnemonic mnemonicString)) := by
  obtain ⟨nonce, converted⟩ := exists_fromSlice (ε := WalletError) size
  rw [converted, Outcome.ok_bind, decryptsSafely_bind
    (decryptsSafely_mapError (fun _ => .wrongPassword) _)]
  intro plain _
  rw [decryptsSafely_bind (decryptsSafely_mapError corrupt_kind _)]
  intro mnemonicString _
  exact decryptsSafely_mapError corrupt_kind _

theorem decryptsSafely_decrypt (laws : encryption.Laws) :
    DecryptsSafely (encrypted.decrypt encryption password) ↔
      HoldsNonce encryption encrypted password := by
  rw [decrypt, decryptsSafely_bind (decryptsSafely_mapError corrupt_kind _)]
  simp only [mapError_eq_ok]
  constructor
  · intro safely salt keyBytes cipherBytes salted hashed decoded
    obtain ⟨key, converted⟩ := exists_fromSlice (ε := WalletError)
      (laws.length_hash hashed)
    have rest := safely salt salted
    rw [hashed] at rest
    simp only [mapError, Outcome.ofOption, Outcome.ok_bind, converted,
      decodeHex, decoded] at rest
    exact (decryptsSafely_splitAt_bind.mp rest).1
  · intro holds salt salted
    rw [decryptsSafely_bind (decryptsSafely_mapError corrupt_kind _)]
    intro passwordHash hashed
    rw [decryptsSafely_bind
      (decryptsSafely_ofOption (corrupt_kind _) passwordHash)]
    intro keyBytes present
    rw [mapError_eq_ok] at hashed
    rw [Outcome.ofOption_eq_ok] at present
    subst present
    obtain ⟨key, converted⟩ := exists_fromSlice (ε := WalletError)
      (laws.length_hash hashed)
    rw [converted, Outcome.ok_bind,
      decryptsSafely_bind (decryptsSafely_decodeHex corrupt_kind _)]
    intro cipherBytes decodes
    have decoded := decodeHex_eq_ok.mp decodes
    have enough := holds salt keyBytes cipherBytes salted hashed decoded
    refine decryptsSafely_splitAt_bind.mpr ⟨enough, ?_⟩
    exact decryptsSafely_opened (List.length_take_of_le enough) key _

theorem decrypt_of_new (laws : encryption.Laws) {random : FixedBytes 16}
    {nonce : FixedBytes 24} {mnemonic : Mnemonic}
    (parses : encryption.Parses mnemonic)
    (created : new encryption random nonce mnemonic password =
      .ok encrypted) :
    encrypted.decrypt encryption password = .ok mnemonic := by
  rw [new, Outcome.bind_eq_ok] at created
  obtain ⟨cipher, ciphered, stored⟩ := created
  cases stored
  simp only [encrypt, Outcome.bind_eq_ok, mapError_eq_ok,
    Outcome.ofOption_eq_ok, Outcome.pure_eq_ok] at ciphered
  obtain ⟨_, hashed, keyBytes, rfl, key, converted, sealed, encrypts, rfl⟩ :=
    ciphered
  have salted := laws.saltFromB64_generateSalt random
  have opened := laws.decrypt_encrypt encrypts
  have parsed : encryption.newMnemonic mnemonic.phrase = .ok mnemonic :=
    parses
  rw [decrypt, salted]
  simp only [mapError, Outcome.ofOption, Outcome.ok_bind, hashed, converted,
    decodeHex_encode, splitAt_append nonce.size,
    nonceSize, fromSlice_bytes, opened, fromUtf8_asBytes, parsed]

/-- A stored mnemonic decrypts or is refused with an error exactly if its
cipher is not too short, and what was stored comes back. -/
theorem decryptsSafely_iff_holdsNonce (laws : encryption.Laws)
    (encrypted : EncryptedMnemonic) (password : String) :
    (DecryptsSafely (encrypted.decrypt encryption password) ↔
      HoldsNonce encryption encrypted password) ∧
    ∀ (random : FixedBytes 16) (nonce : FixedBytes 24)
      (mnemonic : Mnemonic), encryption.Parses mnemonic →
      new encryption random nonce mnemonic password = .ok encrypted →
        encrypted.decrypt encryption password = .ok mnemonic :=
  ⟨decryptsSafely_decrypt laws,
    fun _ _ _ parses created => decrypt_of_new laws parses created⟩

end EncryptedMnemonic

section Samples

def legalWinner : Mnemonic :=
  ⟨"legal winner thank year wave sausage worth useful legal winner thank yellow"⟩

/-- The tag is the first half of the key, and the key is the padded
password. -/
def plainEncryption : Encryption where
  saltFromB64 text :=
    if 4 ≤ text.utf8ByteSize ∧ text.utf8ByteSize ≤ 64 then .ok ⟨text⟩
    else .error "salt invalid: length"
  generateSalt random := ⟨Hex.encode random.bytes⟩
  hashPassword password _ :=
    .ok (some ((password ++ List.replicate 32 0).take 32))
  encryptInPlace key _ plain := .ok (plain ++ key.bytes.take 16)
  decryptInPlace key _ sealed :=
    if sealed.drop (sealed.length - 16) = key.bytes.take 16 then
      .ok (sealed.take (sealed.length - 16))
    else .error "aead::Error"
  describeUtf8Error _ := "invalid utf-8 sequence"
  newMnemonic text :=
    if text = legalWinner.phrase then .ok legalWinner
    else .error "Bip39 error"

theorem plainEncryption_laws : plainEncryption.Laws where
  length_hash := by
    intro password salt hash hashed
    cases hashed
    simp
  saltFromB64_generateSalt random := by
    have size : (Hex.encode random.bytes).utf8ByteSize = 32 := by
      rw [Hex.utf8ByteSize_encode, random.size]
    simp [plainEncryption, size]
  decrypt_encrypt := by
    intro key nonce plain sealed encrypts
    cases encrypts
    have tag : (key.bytes.take 16).length = 16 := by simp [key.size]
    have size : (plain ++ key.bytes.take 16).length - 16 = plain.length := by
      rw [List.length_append, tag, Nat.add_sub_cancel]
    simp only [plainEncryption]
    rw [size, List.drop_left, List.take_left, if_pos rfl]

theorem decryptsSafely_iff_holdsNonce_legalWinner :
    ∃ encrypted, EncryptedMnemonic.new plainEncryption (.zero 16) (.zero 24)
        legalWinner "password" = .ok encrypted ∧
      encrypted.decrypt plainEncryption "password" = .ok legalWinner ∧
      (DecryptsSafely (encrypted.decrypt plainEncryption "password") ↔
        encrypted.HoldsNonce plainEncryption "password") := by
  have spec := fun encrypted =>
    EncryptedMnemonic.decryptsSafely_iff_holdsNonce plainEncryption_laws
      encrypted "password"
  have parses : plainEncryption.Parses legalWinner := by
    simp [Encryption.Parses, plainEncryption]
  refine ⟨_, rfl, ?_, (spec _).1⟩
  exact (spec _).2 (.zero 16) (.zero 24) legalWinner parses rfl

/-- One byte is hexadecimal and shorter than a nonce. -/
theorem decrypt_truncated :
    plainEncryption.Laws ∧
      EncryptedMnemonic.decrypt plainEncryption ⟨"00", "c29tZXNhbHQ"⟩
        "password" = Outcome.panic ∧
      ¬DecryptsSafely (EncryptedMnemonic.decrypt plainEncryption
        ⟨"00", "c29tZXNhbHQ"⟩ "password") := by
  have panics : EncryptedMnemonic.decrypt plainEncryption
      ⟨"00", "c29tZXNhbHQ"⟩ "password" = Outcome.panic := by
    rfl
  exact ⟨plainEncryption_laws, panics,
    panics ▸ not_decryptsSafely_panic⟩

end Samples

end Kaswallet
